import Mathlib
import Palladium.Primitives

/-!
# The transactions of a block template

`TransactionsToJson` lists the transactions of a template for `getblocktemplate`: each
transaction but the coinbase, with its txid, the template positions of the transactions it
depends on, and its fee and sigop cost. The positions come from the map `setTxIndex`, which
the loop fills as it walks `vtx`. An input's dependency is therefore the last position, at
or before the transaction's own, whose txid is the input's `prevout.hash`; fee and sigops are
read at the transaction's own position. `GetHash`, `IsCoinBase` and `in.prevout.hash` read
parts of a transaction this model does not carry and are parameters.
-/

namespace Palladium

/-- The part of a `transactions` entry the modelled code computes: `txid`, `depends`, and
`fee` and `sigops` where the template's vectors reach (`data`, `hash` and `weight` come from
`EncodeHexTx`, `GetWitnessHash` and `GetTransactionWeight`, which are not among the sources). -/
structure TxEntry where
  txid : Uint256
  depends : List Nat
  fee : Option Int
  sigops : Option Int
  deriving DecidableEq

def lastPosition (h : Uint256) (hashes : List Uint256) : Option Nat :=
  ((List.range hashes.length).filter fun q => hashes[q]? = some h).getLast?

theorem lastPosition_append_singleton (h x : Uint256) (hashes : List Uint256) :
    lastPosition h (hashes ++ [x]) =
      if h = x then some hashes.length else lastPosition h hashes := by
  have hpre : ((List.range hashes.length).filter fun q => (hashes ++ [x])[q]? = some h) =
      (List.range hashes.length).filter fun q => hashes[q]? = some h :=
    List.filter_congr fun q hq => by
      rw [List.getElem?_append_left (List.mem_range.mp hq)]
  have hlast : (hashes ++ [x])[hashes.length]? = some x := List.getElem?_concat_length _ _
  unfold lastPosition
  rw [List.length_append, List.length_singleton, List.range_succ, List.filter_append, hpre,
    List.filter_singleton, hlast]
  by_cases hx : h = x
  · simp [hx]
  · simp only [Option.some.injEq, if_neg hx, show ¬x = h from Ne.symm hx, decide_False,
      cond_false, List.append_nil]

section Transactions

variable (getHash : CTransaction → Uint256) (isCoinBase : CTransaction → Bool)
  (prevoutHash : CTxIn → Uint256)

/-- The loop of `TransactionsToJson`, from the map `setTxIndex` and the counter `i` on:
`setTxIndex[txHash] = i++`, then the coinbase skipped, then the entry. -/
def transactionsToJsonLoop (vTxFees vTxSigOpsCost : List Int) :
    (Uint256 → Option Nat) → Nat → List CTransaction → List TxEntry
  | _, _, [] => []
  | setTxIndex, i, tx :: vtx =>
    let txHash := getHash tx
    let setTxIndex := fun h => if h = txHash then some i else setTxIndex h
    let i := i + 1
    if isCoinBase tx then transactionsToJsonLoop vTxFees vTxSigOpsCost setTxIndex i vtx
    else
      let deps := tx.vin.filterMap fun txin => setTxIndex (prevoutHash txin)
      let indexInTemplate := i - 1
      ⟨txHash, deps, vTxFees[indexInTemplate]?, vTxSigOpsCost[indexInTemplate]?⟩ ::
        transactionsToJsonLoop vTxFees vTxSigOpsCost setTxIndex i vtx

def transactionsToJson (vTxFees vTxSigOpsCost : List Int) (block : CBlock) : List TxEntry :=
  transactionsToJsonLoop getHash isCoinBase prevoutHash vTxFees vTxSigOpsCost (fun _ => none) 0
    block.vtx

/-- The entry a non-coinbase transaction at position `p` of `vtx` should get. -/
def txEntrySpec (vTxFees vTxSigOpsCost : List Int) (vtx : List CTransaction) (p : Nat)
    (tx : CTransaction) : TxEntry :=
  ⟨getHash tx,
    tx.vin.filterMap fun txin => lastPosition (prevoutHash txin) ((vtx.take (p + 1)).map getHash),
    vTxFees[p]?, vTxSigOpsCost[p]?⟩

theorem transactionsToJsonLoop_eq (vTxFees vTxSigOpsCost : List Int) :
    ∀ (vtx pre : List CTransaction),
      transactionsToJsonLoop getHash isCoinBase prevoutHash vTxFees vTxSigOpsCost
          (fun h => lastPosition h (pre.map getHash)) pre.length vtx =
        ((vtx.enumFrom pre.length).filter fun e => !isCoinBase e.2).map fun e =>
          txEntrySpec getHash prevoutHash vTxFees vTxSigOpsCost (pre ++ vtx) e.1 e.2
  | [], _ => rfl
  | tx :: vtx, pre => by
    have hmap : ∀ h, (if h = getHash tx then some pre.length
        else lastPosition h (pre.map getHash)) = lastPosition h ((pre ++ [tx]).map getHash) :=
      fun h => by
        rw [List.map_append, List.map_singleton, lastPosition_append_singleton, List.length_map]
    have ih := transactionsToJsonLoop_eq vTxFees vTxSigOpsCost vtx (pre ++ [tx])
    rw [List.length_append, List.length_singleton, List.append_assoc, List.singleton_append] at ih
    have htake : (pre ++ tx :: vtx).take (pre.length + 1) = pre ++ [tx] := by
      rw [List.take_append, List.take_succ_cons, List.take_zero]
    simp only [transactionsToJsonLoop, hmap, List.enumFrom_cons, List.filter_cons,
      Nat.add_sub_cancel]
    cases hcb : isCoinBase tx
    · simp only [hcb, Bool.not_false, Bool.false_eq_true, if_true, if_false, List.map_cons, ih,
        txEntrySpec, htake]
    · simp only [hcb, Bool.not_true, Bool.false_eq_true, if_false, if_true, ih]

theorem transactionsToJson_eq (vTxFees vTxSigOpsCost : List Int) (block : CBlock) :
    transactionsToJson getHash isCoinBase prevoutHash vTxFees vTxSigOpsCost block =
      (block.vtx.enum.filter fun e => !isCoinBase e.2).map fun e =>
        txEntrySpec getHash prevoutHash vTxFees vTxSigOpsCost block.vtx e.1 e.2 := by
  have h := transactionsToJsonLoop_eq getHash isCoinBase prevoutHash vTxFees vTxSigOpsCost
    block.vtx []
  simp only [List.map_nil, List.length_nil, List.nil_append] at h
  exact h

end Transactions

end Palladium
