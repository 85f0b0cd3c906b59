import Mathlib
import Palladium.Retarget

/-!
# Chains grown by the difficulty engine

A network's chain starts at its genesis block and grows by blocks whose `nBits` is what
`GetNextWorkRequired` demands of a candidate, stamped with the candidate's time. Every block
of such a chain carries an in-range target and the engine always answers, but the target can
reach zero. On the main network a run of blocks stamped alike quarters the target at each
retarget. After 112 retargets the demanded `nBits` is `GetCompact(0) = 0`, which
`CheckProofOfWork` rejects whatever the hash.
-/

namespace Palladium

/-- The branches a network can grow: its genesis block, then blocks whose `nBits` is what
`GetNextWorkRequired` demands of a candidate carrying the new block's time. -/
inductive Reachable (net : CChainParams) : Chain → Prop
  | genesis (nChainWork : Nat) :
      Reachable net ⟨[], ⟨net.genesisTime, net.genesisBits, nChainWork⟩⟩
  | push {c : Chain} {pblock : CBlockHeader} {nBits : UInt32} (nChainWork : Nat) :
      Reachable net c → getNextWorkRequired Arith.machine c pblock net.consensus = some nBits →
      Reachable net (c.push ⟨pblock.nTime, nBits, nChainWork⟩)

theorem genesis_bitsBounded : ∀ net ∈ networks, BitsBounded net.consensus net.genesisBits := by
  simp only [networks, List.mem_cons, List.mem_singleton, List.not_mem_nil, or_false]
  rintro net (rfl | rfl | rfl) <;> exact .of_rangeOk (by decide)

theorem bitsBounded_of_getNextWorkRequired {A : Arith} {c : Chain} {pblock : CBlockHeader}
    {params : ConsensusParams} {nBits : UInt32}
    (hbits : ∀ b ∈ c.blocks, BitsBounded params b.nBits)
    (h : getNextWorkRequired A c pblock params = some nBits) : BitsBounded params nBits := by
  rcases getNextWorkRequired_cases h with ⟨x, hx, rfl⟩ | ⟨b, hb, rfl⟩
  · exact bitsBounded_getCompact hx
  · exact hbits b hb

theorem Reachable.bitsBounded {net : CChainParams} (hnet : net ∈ networks) {c : Chain}
    (hc : Reachable net c) : ∀ b ∈ c.blocks, BitsBounded net.consensus b.nBits := by
  induction hc with
  | genesis w =>
    intro b hb
    rw [Chain.blocks, List.nil_append, List.mem_singleton] at hb
    rw [hb]
    exact genesis_bitsBounded net hnet
  | push w _ hgnwr ih =>
    intro b hb
    rcases Chain.mem_blocks_push.mp hb with hb | rfl
    · exact ih b hb
    · exact bitsBounded_of_getNextWorkRequired ih hgnwr

/-! ## A run of blocks stamped alike on the main network -/

theorem mainParams_fit : ParamsFit mainParams :=
  networks_fit mainChainParams (by simp [networks])

theorem calculateNextWorkRequired_main_flat {c : Chain} (htip : BitsBounded mainParams c.tip.nBits)
    (first : CBlockIndex) (ht : first.getBlockTime = c.tip.getBlockTime) :
    calculateNextWorkRequired Arith.machine c first.getBlockTime mainParams =
      some (getCompact ((setCompact Arith.machine c.tip.nBits).value / 4)) := by
  have hv := htip.exact_le
  have e1 : mainParams.fPowNoRetargeting = false := rfl
  have e2 : mainParams.nPowTargetTimespan.tdiv 4 = 21600 := rfl
  have e3 : mainParams.nPowTargetTimespan * 4 = 345600 := rfl
  have e4 : mainParams.nPowTargetTimespan.toNat = 4 * 21600 := rfl
  rw [mainParams_fit.calculateNextWorkRequired_machine_eq_exact htip, htip.setCompact_eq]
  simp only [calculateNextWorkRequired, ht, sub_self, e1, e2, e3, e4, Arith.exact_i64,
    Arith.exact_u256, Arith.exact_u32, Arith.exact_u64, Bool.false_eq_true, if_false]
  have hq : (setCompact Arith.exact c.tip.nBits).value * 21600 / 86400 =
      (setCompact Arith.exact c.tip.nBits).value / 4 := by omega
  norm_num only [udiv_of_ne, if_true, if_false]
  rw [show Int.toNat 21600 = 21600 from rfl, hq,
    if_neg (not_lt.mpr ((Nat.div_le_self _ _).trans hv))]

/-- The main network's target after `k` retargets of a run stamped alike: `⌊X₀ / 4^k⌋` for
the genesis target `X₀ = 0xffff * 2^208`. -/
def descentBits (k : Nat) : UInt32 := getCompact (0xffff * 2 ^ 208 / 4 ^ k)

set_option maxRecDepth 4000 in
theorem setCompact_descentBits : ∀ k < 112,
    (setCompact Arith.machine (descentBits k)).value = 0xffff * 2 ^ 208 / 4 ^ k := by
  decide

def descentBlock (i : Nat) : CBlockIndex := ⟨1231006505, descentBits (i / 144), 0⟩

/-- Blocks `0 .. n` of the main network stamped alike. -/
def descentChain (n : Nat) : Chain := ⟨(List.range n).map descentBlock, descentBlock n⟩

def descentCandidate : CBlockHeader := ⟨0, Uint256.zero, Uint256.zero, 1231006505, 0, 0⟩

theorem descentBlock_getBlockTime (i : Nat) : (descentBlock i).getBlockTime = 1231006505 := rfl

theorem descentChain_nHeight (n : Nat) : (descentChain n).nHeight = n := by
  simp [descentChain, Chain.nHeight]

theorem descentChain_blocks (n : Nat) :
    (descentChain n).blocks = (List.range (n + 1)).map descentBlock := by
  rw [List.range_succ, List.map_append]
  rfl

theorem descentChain_succ (n : Nat) :
    descentChain (n + 1) = (descentChain n).push (descentBlock (n + 1)) := by
  rw [Chain.push, descentChain_blocks]
  rfl

theorem bitsBounded_descentBits (k : Nat) : BitsBounded mainParams (descentBits k) :=
  bitsBounded_getCompact ((Nat.div_le_self _ _).trans (by decide))

theorem descentChain_getAncestor {n i : Nat} (hi : i ≤ n) :
    (descentChain n).getAncestor i = some (descentBlock i) := by
  rw [Chain.getAncestor_natCast, descentChain_blocks, List.getElem?_map,
    List.getElem?_range (by omega)]
  rfl

theorem getNextWorkRequired_descentChain {n : Nat} (hn : n < 16128) (pblock : CBlockHeader) :
    getNextWorkRequired Arith.machine (descentChain n) pblock mainParams =
      some (descentBits ((n + 1) / 144)) := by
  have hi : mainParams.nPowTargetTimespan.tdiv mainParams.nPowTargetSpacing = 144 := rfl
  have hmod : ((n : Int) + 1).tmod 144 = ((n + 1) % 144 : Nat) := by
    rw [Int.tmod_eq_emod (by omega) (by omega)]
    omega
  simp only [getNextWorkRequired, descentChain_nHeight]
  rw [if_neg (by omega), if_neg (by omega),
    mainParams_fit.difficultyAdjustmentInterval_of_lt (by omega), hi]
  simp only [cmod_of_ne (by decide : (144 : Int) ≠ 0), hmod]
  by_cases hr : (n + 1) % 144 = 0
  · rw [if_neg (by omega), if_neg (by omega),
      show (n : Int) - (144 - 1) = ((n - 143 : Nat) : Int) by omega,
      descentChain_getAncestor (by omega)]
    simp only
    rw [calculateNextWorkRequired_main_flat (c := descentChain n) (bitsBounded_descentBits (n / 144))
      (descentBlock (n - 143)) ((descentBlock_getBlockTime _).trans (descentBlock_getBlockTime n).symm)]
    show some (getCompact ((setCompact Arith.machine (descentBits (n / 144))).value / 4)) = _
    rw [setCompact_descentBits _ (by omega), Nat.div_div_eq_div_mul, ← pow_succ,
      show n / 144 + 1 = (n + 1) / 144 by omega]
    rfl
  · rw [if_pos (by omega), if_neg (by decide)]
    show some (descentBits (n / 144)) = _
    rw [show n / 144 = (n + 1) / 144 by omega]

theorem reachable_descentChain : ∀ n < 16128, Reachable mainChainParams (descentChain n)
  | 0, _ => .genesis 0
  | n + 1, hn => by
    rw [descentChain_succ]
    exact .push 0 (reachable_descentChain n (by omega))
      (getNextWorkRequired_descentChain (by omega) descentCandidate)

/-! ## What every branch is demanded

The engine always answers with an in-range target, and its words hold their exact values; the
witnesses take the run above at its first retarget. -/

theorem getNextWorkRequired_bitsBounded {net : CChainParams} (hnet : net ∈ networks) {c : Chain}
    (hc : Reachable net c) (pblock : CBlockHeader) :
    ∃ nBits, getNextWorkRequired Arith.machine c pblock net.consensus = some nBits ∧
      BitsBounded net.consensus nBits := by
  obtain ⟨nBits, h⟩ := (networks_fit net hnet).getNextWorkRequired_isSome c pblock
  exact ⟨nBits, h, bitsBounded_of_getNextWorkRequired (hc.bitsBounded hnet) h⟩

theorem getNextWorkRequired_bitsBounded_descentChain :
    ∃ nBits, getNextWorkRequired Arith.machine (descentChain 143) descentCandidate mainParams =
        some nBits ∧ BitsBounded mainParams nBits :=
  getNextWorkRequired_bitsBounded (by simp [networks] : mainChainParams ∈ networks)
    (reachable_descentChain 143 (by norm_num)) _

theorem getNextWorkRequired_reaches_zero :
    Reachable mainChainParams (descentChain 16127) ∧
    getNextWorkRequired Arith.machine (descentChain 16127) descentCandidate mainParams = some 0 ∧
    rangeOk mainParams 0 = false :=
  ⟨reachable_descentChain 16127 (by norm_num),
    (getNextWorkRequired_descentChain (by norm_num) _).trans (by decide), by decide⟩

theorem Reachable.getNextWorkRequired_exact {net : CChainParams}
    (hnet : net ∈ networks) {c : Chain} (hc : Reachable net c) (pblock : CBlockHeader) :
    getNextWorkRequired Arith.machine c pblock net.consensus =
      getNextWorkRequired Arith.exact c pblock net.consensus :=
  (networks_fit net hnet).getNextWorkRequired_machine_eq_exact (hc.bitsBounded hnet) pblock

theorem descentChain_getNextWorkRequired_exact :
    getNextWorkRequired Arith.machine (descentChain 143) descentCandidate mainParams =
      getNextWorkRequired Arith.exact (descentChain 143) descentCandidate mainParams :=
  Reachable.getNextWorkRequired_exact (by simp [networks] : mainChainParams ∈ networks)
    (reachable_descentChain 143 (by norm_num)) _

end Palladium
