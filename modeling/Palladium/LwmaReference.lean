import Mathlib
import Palladium.Lwma

/-!
# The reference LWMA

Spec §4.3.2 states LWMA directly: over the 240 blocks after the one at height `h - 240`, the
weighted solve-time sum `W`, the target sum `S`, `k = 240 * 241 * T / 2`, and the result
`GetCompact(min(powLimit, ⌊⌊S / 240⌋ * W / (k * T)⌋))`. The code computes it as long as its
loop variables fit their machine words. On a window whose blocks arrive exactly `T` apart
the formula, dividing by `k * T`, gives `X / T` for the window's target `X`.
-/

namespace Palladium

/-- The reference LWMA of spec §4.3.2 over the window after `blockStart`. -/
def lwmaReferenceOf (params : ConsensusParams) (blockStart : CBlockIndex)
    (window : List CBlockIndex) : UInt32 :=
  let T := params.nPowTargetSpacingV2
  let W := (((lwmaSolveTimes T blockStart.getBlockTime window).enumFrom 1).map
    fun p => (p.1 : Int) * p.2).sum
  let S := (window.map fun b => (setCompact Arith.exact b.nBits).value).sum
  let k := 240 * 241 * T / 2
  getCompact (min params.powLimit (((S / 240 : Nat) : Int) * W / (k * T)).toNat)

/-- The reference LWMA at the tip of `c`: `GetCompact(powLimit)` below height 240, otherwise
the reference over the blocks at heights `h - 239 .. h`. -/
def lwmaReference (params : ConsensusParams) (c : Chain) : UInt32 :=
  if c.nHeight < 240 then getCompact params.powLimit
  else
    match c.blocks.drop (c.nHeight - 240) with
    | [] => getCompact params.powLimit
    | blockStart :: window => lwmaReferenceOf params blockStart window

theorem toNat_natCast_mul_ediv (a d : Nat) (W : Int) :
    ((a : Int) * W / d).toNat = a * W.toNat / d := by
  rcases Int.le_total 0 W with hW | hW
  · obtain ⟨w, rfl⟩ := Int.eq_ofNat_of_zero_le hW
    rw [← Int.natCast_mul, ← Int.ofNat_ediv, Int.toNat_natCast, Int.toNat_natCast]
  · rw [Int.toNat_eq_zero.mpr hW, Nat.mul_zero, Nat.zero_div, Int.toNat_eq_zero]
    rcases Nat.eq_zero_or_pos d with rfl | hd
    · simp
    · simpa using Int.ediv_le_ediv (by omega : (0 : Int) < d)
        (Int.mul_nonpos_of_nonneg_of_nonpos (Int.natCast_nonneg a) hW)

theorem lwma_kT_eq (T : Int) : 240 * 241 * T / 2 * T = 28920 * T * T := by
  rw [show 240 * 241 * T / 2 = 28920 * T by omega]

theorem lwmaFinish_foldl_exact {params : ConsensusParams} (hT : 0 < params.nPowTargetSpacingV2)
    (blockStart : CBlockIndex) (window : List CBlockIndex) :
    lwmaFinish Arith.exact params (window.foldl (lwmaStep Arith.exact params.nPowTargetSpacingV2)
      ⟨blockStart.getBlockTime, 0, 0, 0⟩) = some (lwmaReferenceOf params blockStart window) := by
  obtain ⟨ht, hs⟩ := foldl_lwmaStep_exact params.nPowTargetSpacingV2 window
    ⟨blockStart.getBlockTime, 0, 0, 0⟩ 0 rfl
  have hkT : 240 * 241 * params.nPowTargetSpacingV2 / 2 * params.nPowTargetSpacingV2 =
      ((28920 * params.nPowTargetSpacingV2 * params.nPowTargetSpacingV2).toNat : Int) := by
    rw [lwma_kT_eq, Int.toNat_of_nonneg (by positivity)]
  rw [lwmaFinish_exact _ hT, ht, hs, lwmaReferenceOf]
  dsimp only
  simp only [Int.zero_add, Nat.zero_add, hkT, toNat_natCast_mul_ediv]

theorem sum_values_le {params : ConsensusParams} {window : List CBlockIndex}
    (hbits : ∀ b ∈ window, BitsBounded params b.nBits) :
    (window.map fun b => (setCompact Arith.exact b.nBits).value).sum ≤
      window.length * params.powLimit := by
  have h := List.sum_le_card_nsmul (window.map fun b => (setCompact Arith.exact b.nBits).value)
    params.powLimit (List.forall_mem_map.mpr fun b hb => (hbits b hb).exact_le)
  simpa using h

theorem lwmaCalculateNextWorkRequired_machine_of_drop {params : ConsensusParams} {c : Chain}
    {blockStart : CBlockIndex} {window : List CBlockIndex}
    (hT : 0 < params.nPowTargetSpacingV2) (hT32 : 173520 * params.nPowTargetSpacingV2 < 2 ^ 32)
    (hlim : 173520 * params.nPowTargetSpacingV2 * params.powLimit < 2 ^ 256)
    (hh : 240 ≤ c.nHeight) (hd : c.blocks.drop (c.nHeight - 240) = blockStart :: window)
    (hbits : ∀ b ∈ window, BitsBounded params b.nBits) :
    lwmaCalculateNextWorkRequired Arith.machine c params =
      some (lwmaReferenceOf params blockStart window) := by
  have hlen := length_window_of_drop hh hd
  rw [lwmaCalculateNextWorkRequired_of_drop hh hd]
  set T := params.nPowTargetSpacingV2
  set start : LwmaAcc := ⟨blockStart.getBlockTime, 0, 0, 0⟩
  obtain ⟨hfold, hb⟩ := foldl_lwmaStep_machine hT hT32 window 0 start (by omega)
    (lwmaBounds_start T blockStart)
  have hsum : (window.foldl (lwmaStep Arith.exact T) start).sumTarget ≤ 240 * params.powLimit := by
    rw [(foldl_lwmaStep_exact T window start 0 rfl).2, ← hlen]
    simpa using sum_values_le hbits
  have hlim' : 240 * params.powLimit < 2 ^ 256 := by
    have : (240 : Int) * params.powLimit ≤ 173520 * T * params.powLimit :=
      Int.mul_le_mul_of_nonneg_right (by omega) (Int.natCast_nonneg _)
    exact_mod_cast this.trans_lt hlim
  rw [show start = start.wrap from rfl, hfold,
    LwmaAcc.wrap_of_lt (by omega), lwmaFinish_machine hT hT32 hlim
    (by rwa [Nat.zero_add, hlen] at hb) hsum, lwmaFinish_foldl_exact hT]

theorem lwmaCalculateNextWorkRequired_exact_eq_reference {params : ConsensusParams} {c : Chain}
    (hT : 0 < params.nPowTargetSpacingV2) :
    lwmaCalculateNextWorkRequired Arith.exact c params = some (lwmaReference params c) := by
  unfold lwmaReference
  split_ifs with hh
  · exact lwmaCalculateNextWorkRequired_of_lt hh
  · obtain ⟨blockStart, window, hd⟩ := exists_drop_eq_cons (c := c) (by omega)
    simp only [hd]
    rw [lwmaCalculateNextWorkRequired_of_drop (by omega) hd, lwmaFinish_foldl_exact hT]

theorem lwmaCalculateNextWorkRequired_machine_eq_exact {params : ConsensusParams} {c : Chain}
    (hT : 0 < params.nPowTargetSpacingV2) (hT32 : 173520 * params.nPowTargetSpacingV2 < 2 ^ 32)
    (hlim : 173520 * params.nPowTargetSpacingV2 * params.powLimit < 2 ^ 256)
    (hbits : ∀ b ∈ c.blocks, BitsBounded params b.nBits) :
    lwmaCalculateNextWorkRequired Arith.machine c params =
      lwmaCalculateNextWorkRequired Arith.exact c params := by
  rcases lt_or_le c.nHeight 240 with hh | hh
  · rw [lwmaCalculateNextWorkRequired_of_lt hh, lwmaCalculateNextWorkRequired_of_lt hh]
  · obtain ⟨blockStart, window, hd⟩ := exists_drop_eq_cons hh
    rw [lwmaCalculateNextWorkRequired_machine_of_drop hT hT32 hlim hh hd
      fun b hb => hbits b (List.mem_of_mem_drop (hd ▸ List.mem_cons_of_mem _ hb)),
      lwmaCalculateNextWorkRequired_of_drop hh hd, lwmaFinish_foldl_exact hT]

def onScheduleBlock (nBits : UInt32) (i : Nat) : CBlockIndex := ⟨UInt32.ofNat (120 * i), nBits, 0⟩

/-- Blocks `0 .. n` carrying `nBits`, each stamped `nPowTargetSpacingV2 = 120` after the one
before. -/
def onScheduleChain (n : Nat) (nBits : UInt32) : Chain :=
  ⟨(List.range n).map (onScheduleBlock nBits), onScheduleBlock nBits n⟩

theorem onScheduleChain_nHeight (n : Nat) (nBits : UInt32) :
    (onScheduleChain n nBits).nHeight = n := by
  simp [onScheduleChain, Chain.nHeight]

theorem onScheduleChain_nBits {n : Nat} {nBits : UInt32} {b : CBlockIndex}
    (hb : b ∈ (onScheduleChain n nBits).blocks) : b.nBits = nBits := by
  rcases List.mem_append.mp hb with hb | hb
  · obtain ⟨i, -, rfl⟩ := List.mem_map.mp hb
    rfl
  · rw [List.mem_singleton.mp hb]
    rfl

theorem lwmaCalculateNextWorkRequired_eq_reference {params : ConsensusParams} {c : Chain}
    (hT : 0 < params.nPowTargetSpacingV2) (hT32 : 173520 * params.nPowTargetSpacingV2 < 2 ^ 32)
    (hlim : 173520 * params.nPowTargetSpacingV2 * params.powLimit < 2 ^ 256)
    (hbits : ∀ b ∈ c.blocks, BitsBounded params b.nBits) :
    lwmaCalculateNextWorkRequired Arith.machine c params = some (lwmaReference params c) := by
  rw [lwmaCalculateNextWorkRequired_machine_eq_exact hT hT32 hlim hbits,
    lwmaCalculateNextWorkRequired_exact_eq_reference hT]

theorem lwmaCalculateNextWorkRequired_eq_reference_onSchedule :
    lwmaCalculateNextWorkRequired Arith.machine (onScheduleChain 240 0x1d00ffff) mainParams =
      some (lwmaReference mainParams (onScheduleChain 240 0x1d00ffff)) :=
  lwmaCalculateNextWorkRequired_eq_reference (by decide) (by norm_num [mainParams])
    (by norm_num [mainParams]) fun b hb => by
      rw [onScheduleChain_nBits hb]
      exact .of_rangeOk (by decide)

/-! ## Windows of constant spacing -/

theorem lwmaSolveTimes_of_chain {T d : Int} (hd : 0 ≤ d) :
    ∀ (blockStart : CBlockIndex) (window : List CBlockIndex),
      (blockStart :: window).Chain' (fun a b => b.getBlockTime = a.getBlockTime + d) →
      lwmaSolveTimes T blockStart.getBlockTime window =
        List.replicate window.length (min (6 * T) (max 1 d)) := by
  intro blockStart window
  induction window generalizing blockStart with
  | nil => intro _; rfl
  | cons b window ih =>
    intro h
    rw [List.chain'_cons] at h
    have hmax : max b.getBlockTime blockStart.getBlockTime = b.getBlockTime := by omega
    rw [lwmaSolveTimes, hmax, ih b h.2, List.length_cons, List.replicate_succ, h.1,
      add_sub_cancel_left]

theorem sum_enumFrom_replicate (s : Int) :
    ∀ (n k : Nat), 2 * (((List.replicate n s).enumFrom k).map fun p => (p.1 : Int) * p.2).sum =
      s * n * (2 * k + n - 1)
  | 0, k => by simp
  | n + 1, k => by
    rw [List.replicate_succ, List.enumFrom_cons, List.map_cons, List.sum_cons, mul_add,
      sum_enumFrom_replicate s n (k + 1)]
    push_cast
    ring

/-- On 240 blocks carrying one `nBits`, each stamped `d ≥ 0` after the one before, the
reference LWMA divides `X * 28920 * s` by `k * T = 28920 * T * T`, where `X` is the decoded
target and `s = min(6T, max(1, d))` the common solve time. -/
theorem lwmaReferenceOf_const {params : ConsensusParams} {blockStart : CBlockIndex}
    {window : List CBlockIndex} {nBits : UInt32} {d : Int} (hlen : window.length = 240)
    (hbits : ∀ b ∈ window, b.nBits = nBits) (hd : 0 ≤ d)
    (hchain : (blockStart :: window).Chain' (fun a b => b.getBlockTime = a.getBlockTime + d)) :
    lwmaReferenceOf params blockStart window = getCompact (min params.powLimit
      (((setCompact Arith.exact nBits).value : Int) *
        (28920 * min (6 * params.nPowTargetSpacingV2) (max 1 d)) /
        (28920 * params.nPowTargetSpacingV2 * params.nPowTargetSpacingV2)).toNat) := by
  have hS : (window.map fun b => (setCompact Arith.exact b.nBits).value).sum / 240 =
      (setCompact Arith.exact nBits).value := by
    rw [List.map_congr_left fun b hb => by rw [hbits b hb], List.map_const', List.sum_replicate,
      smul_eq_mul, hlen, Nat.mul_div_cancel_left _ (by norm_num)]
  have hW : (((List.replicate 240 (min (6 * params.nPowTargetSpacingV2) (max 1 d))).enumFrom 1).map
      fun p => (p.1 : Int) * p.2).sum = 28920 * min (6 * params.nPowTargetSpacingV2) (max 1 d) := by
    have := sum_enumFrom_replicate (min (6 * params.nPowTargetSpacingV2) (max 1 d)) 240 1
    omega
  unfold lwmaReferenceOf
  dsimp only
  rw [lwmaSolveTimes_of_chain hd _ _ hchain, hS, hlen, hW, lwma_kT_eq]

theorem foldl_lwmaStep_exact_flat {T : Int} (hT : 0 < T) (b : CBlockIndex) (n : Nat) :
    2 * ((List.replicate n b).foldl (lwmaStep Arith.exact T) ⟨b.getBlockTime, 0, 0, 0⟩).t =
      n * (n + 1) ∧
    ((List.replicate n b).foldl (lwmaStep Arith.exact T) ⟨b.getBlockTime, 0, 0, 0⟩).sumTarget =
      n * (setCompact Arith.exact b.nBits).value := by
  obtain ⟨ht, hs⟩ := foldl_lwmaStep_exact T (List.replicate n b) ⟨b.getBlockTime, 0, 0, 0⟩ 0 rfl
  have hW := sum_enumFrom_replicate 1 n 1
  rw [lwmaSolveTimes_of_chain le_rfl _ _ (List.chain'_replicate_of_rel (n + 1)
    (Int.add_zero _).symm), List.length_replicate,
    show min (6 * T) (max 1 0) = 1 by omega] at ht
  rw [List.map_replicate, List.sum_const_nat] at hs
  refine ⟨?_, by rw [hs]; exact Nat.zero_add _⟩
  rw [ht]
  push_cast at hW ⊢
  linarith

/-- Consensus parameters whose `powLimit` fills the 256-bit word, with `T = 1`. -/
def widePowLimitParams : ConsensusParams :=
  { mainParams with powLimit := 2 ^ 256 - 1, powLimit_lt := by norm_num, nPowTargetSpacingV2 := 1 }

def flatBlock : CBlockIndex := ⟨0, 0x2100ffff, 0⟩

def flatChain : Chain := ⟨List.replicate 240 flatBlock, flatBlock⟩

theorem lwmaCalculateNextWorkRequired_wraps :
    0 < widePowLimitParams.nPowTargetSpacingV2 ∧
    (∀ b ∈ flatChain.blocks, rangeOk widePowLimitParams b.nBits = true) ∧
    lwmaCalculateNextWorkRequired Arith.machine flatChain widePowLimitParams = some 505548801 ∧
    lwmaReference widePowLimitParams flatChain = 553713663 := by
  have hblocks : flatChain.blocks = flatBlock :: List.replicate 240 flatBlock := by
    rw [Chain.blocks, flatChain, ← List.replicate_succ', List.replicate_succ]
  have hn : flatChain.nHeight = 240 := List.length_replicate _ _
  have hd : flatChain.blocks.drop (flatChain.nHeight - 240) =
      flatBlock :: List.replicate 240 flatBlock := by
    rw [hblocks, hn, Nat.sub_self, List.drop_zero]
  have hchain : (flatBlock :: List.replicate 240 flatBlock).Chain'
      (fun a b => b.getBlockTime = a.getBlockTime + 0) := by
    rw [← List.replicate_succ]
    exact List.chain'_replicate_of_rel _ (Int.add_zero _).symm
  refine ⟨by decide, ?_, ?_, ?_⟩
  · rw [hblocks]
    intro b hb
    rw [← List.replicate_succ, List.mem_replicate] at hb
    rw [hb.2]
    decide
  · obtain ⟨hfold, -⟩ := foldl_lwmaStep_machine (T := 1) (by decide) (by decide)
      (List.replicate 240 flatBlock) 0 ⟨flatBlock.getBlockTime, 0, 0, 0⟩
      (by rw [List.length_replicate]) (lwmaBounds_start 1 flatBlock)
    obtain ⟨ht, hs⟩ := foldl_lwmaStep_exact_flat (T := 1) one_pos flatBlock 240
    rw [lwmaCalculateNextWorkRequired_of_drop hn.ge hd]
    change lwmaFinish _ _ (List.foldl (lwmaStep Arith.machine 1)
      (LwmaAcc.wrap ⟨flatBlock.getBlockTime, 0, 0, 0⟩) _) = _
    rw [hfold, @lwmaFinish_congr _ _ _ ⟨0, 0, 28920,
      240 * (setCompact Arith.exact flatBlock.nBits).value % 2 ^ 256⟩
      (by rw [LwmaAcc.wrap_t]; dsimp only; omega) (by rw [LwmaAcc.wrap_sumTarget, hs])]
    decide
  · rw [lwmaReference, if_neg (by rw [hn]; decide), hd]
    dsimp only
    rw [lwmaReferenceOf_const (List.length_replicate _ _)
      (fun b hb => by rw [List.eq_of_mem_replicate hb] : ∀ b ∈ List.replicate 240 flatBlock,
        b.nBits = flatBlock.nBits) le_rfl hchain]
    decide

/-! ## A window on schedule -/

theorem onScheduleChain_drop {n : Nat} (nBits : UInt32) (hn : 240 ≤ n) :
    (onScheduleChain n nBits).blocks.drop ((onScheduleChain n nBits).nHeight - 240) =
      (List.range' (n - 240) (240 + 1)).map (onScheduleBlock nBits) := by
  have hblocks : (onScheduleChain n nBits).blocks = (List.range' 0 (n - 240) ++
      List.range' (0 + (n - 240)) (240 + 1)).map (onScheduleBlock nBits) := by
    rw [List.range'_append_1, show 240 + 1 + (n - 240) = n + 1 by omega, ← List.range_eq_range',
      List.range_succ, List.map_append]
    rfl
  rw [hblocks, onScheduleChain_nHeight, List.map_append, List.drop_left' (by simp), Nat.zero_add]

theorem chain_onScheduleBlock {s : Nat} (nBits : UInt32) (m : Nat) (h : 120 * (s + m) < 2 ^ 32) :
    ((List.range' s (m + 1)).map (onScheduleBlock nBits)).Chain'
      (fun a b => b.getBlockTime = a.getBlockTime + 120) := by
  rw [List.chain'_map, List.range'_eq_map_range, List.chain'_map, List.chain'_range_succ]
  intro i hi
  simp only [onScheduleBlock, CBlockIndex.getBlockTime, uint32_toNat_ofNat]
  rw [Nat.mod_eq_of_lt (by omega), Nat.mod_eq_of_lt (by omega)]
  push_cast
  ring

theorem lwmaCalculateNextWorkRequired_onSchedule {params : ConsensusParams} {c : Chain}
    {blockStart : CBlockIndex} {window : List CBlockIndex} {nBits : UInt32}
    (hT : 0 < params.nPowTargetSpacingV2) (hT32 : 173520 * params.nPowTargetSpacingV2 < 2 ^ 32)
    (hlim : 173520 * params.nPowTargetSpacingV2 * params.powLimit < 2 ^ 256)
    (hh : 240 ≤ c.nHeight) (hd : c.blocks.drop (c.nHeight - 240) = blockStart :: window)
    (hbits : ∀ b ∈ window, b.nBits = nBits) (hok : BitsBounded params nBits)
    (hchain : (blockStart :: window).Chain'
      (fun a b => b.getBlockTime = a.getBlockTime + params.nPowTargetSpacingV2)) :
    lwmaCalculateNextWorkRequired Arith.machine c params = some
      (getCompact ((setCompact Arith.machine nBits).value / params.nPowTargetSpacingV2.toNat)) := by
  have hX := hok.exact_le
  rw [hok.setCompact_eq]
  rw [lwmaCalculateNextWorkRequired_machine_of_drop hT hT32 hlim hh hd
    (fun b hb => hbits b hb ▸ hok), lwmaReferenceOf_const (length_window_of_drop hh hd) hbits
    hT.le hchain, show min (6 * params.nPowTargetSpacingV2) (max 1 params.nPowTargetSpacingV2) =
    params.nPowTargetSpacingV2 by omega]
  obtain ⟨T, hTeq⟩ : ∃ T : Nat, params.nPowTargetSpacingV2 = T :=
    ⟨params.nPowTargetSpacingV2.toNat, (Int.toNat_of_nonneg hT.le).symm⟩
  rw [hTeq] at hT ⊢
  rw [mul_comm ((setCompact Arith.exact nBits).value : Int),
    Int.mul_ediv_mul_of_pos _ _ (by omega), ← Int.ofNat_ediv, Int.toNat_natCast,
    Int.toNat_natCast, min_eq_right ((Nat.div_le_self _ _).trans hX)]

theorem lwmaCalculateNextWorkRequired_onSchedule_main :
    lwmaCalculateNextWorkRequired Arith.machine (onScheduleChain 240 0x1d00ffff) mainParams =
      some (getCompact ((setCompact Arith.machine 0x1d00ffff).value /
        mainParams.nPowTargetSpacingV2.toNat)) := by
  have hd := onScheduleChain_drop 0x1d00ffff (n := 240) le_rfl
  rw [List.range'_succ, List.map_cons] at hd
  have hchain := chain_onScheduleBlock 0x1d00ffff (s := 240 - 240) 240 (by norm_num)
  rw [List.range'_succ, List.map_cons] at hchain
  exact lwmaCalculateNextWorkRequired_onSchedule (by decide) (by norm_num [mainParams])
    (by norm_num [mainParams]) (by rw [onScheduleChain_nHeight]) hd
    (fun b hb => by obtain ⟨i, -, rfl⟩ := List.mem_map.mp hb; rfl) (.of_rangeOk (by decide)) hchain

theorem lwmaCalculateNextWorkRequired_onScheduleChain :
    lwmaCalculateNextWorkRequired Arith.machine (onScheduleChain 29000 0x1d00ffff) mainParams =
      some (getCompact ((setCompact Arith.machine 0x1d00ffff).value / 120)) ∧
    getCompact ((setCompact Arith.machine 0x1d00ffff).value / 120) = 469901856 ∧
    getCompact (setCompact Arith.machine 0x1d00ffff).value = 0x1d00ffff := by
  have hd := onScheduleChain_drop 0x1d00ffff (n := 29000) (by norm_num)
  rw [List.range'_succ, List.map_cons] at hd
  have hchain := chain_onScheduleBlock 0x1d00ffff (s := 29000 - 240) 240 (by norm_num)
  rw [List.range'_succ, List.map_cons] at hchain
  refine ⟨?_, by decide, by decide⟩
  rw [lwmaCalculateNextWorkRequired_machine_of_drop (by decide) (by norm_num [mainParams])
    (by norm_num [mainParams]) (by rw [onScheduleChain_nHeight]; norm_num) hd
    (fun b hb => by
      obtain ⟨i, -, rfl⟩ := List.mem_map.mp hb
      exact .of_rangeOk (by decide : rangeOk mainParams 0x1d00ffff = true)),
    lwmaReferenceOf_const (by simp) (fun b hb => by obtain ⟨i, -, rfl⟩ := List.mem_map.mp hb; rfl :
      ∀ b ∈ (List.range' (29000 - 240 + 1) 240).map (onScheduleBlock 0x1d00ffff),
        b.nBits = 0x1d00ffff) (d := 120) (by norm_num) hchain]
  decide

end Palladium
