import Mathlib
import Palladium.Submit
import Palladium.UniValue

/-!
# The request side of `getblocktemplate`

Before its longpoll branch `getblocktemplate` checks its arguments and reads the request
object: `mode`, `longpollid`, and `data`, or `rules` and `maxversion`, each through a getter
that throws on a value of the wrong type. A proposal is answered at once, from
`CheckBlockTemplateProposal`. A template request then passes the mode, connection, download and
`segwit` rule checks, in that order; a call without a request object never passes them. On a
block `submitblock` finds already known, a proposal gives the same answer.
-/

namespace Palladium

/-- What the checks before a template read of the node: whether `g_connman` exists, its
`GetNodeCount(CONNECTIONS_ALL)`, `MineBlocksOnDemand()` and `IsInitialBlockDownload()`. -/
structure TemplateNodeStatus where
  connman : Bool
  nodeCount : Nat
  mineBlocksOnDemand : Bool
  initialBlockDownload : Bool

/-- The submission node with `TestBlockValidity` on the active tip, which the proposal path
calls and which is not among the sources. -/
structure ProposalNode (σ : Type) extends SubmitNode σ where
  testBlockValidity : σ → CBlock → BlockValidationState

def UniValue.longPollValue : UniValue → Option LongPollValue
  | .null => none
  | .str s => some (.str s.toList)
  | _ => some .nonString

/-- What a request that passes the parse leads to: the proposal's reply, or the template path
with its `longpollid`. -/
inductive TemplateCall
  | proposal (reply : Except String (Option String))
  | template (lpval : Option LongPollValue)

section Request

variable (c : Codec) (Hash : List UInt8 → Uint256) {σ : Type} (node : ProposalNode σ)

/-- `CheckBlockTemplateProposal(data)` on the node state `s`: the state it leaves in
`GBTValidity`, or the text it throws. The duplicate states are `Invalid(BLOCK_HEADER_DUPLICATE,
reason, reason)`. -/
def checkBlockTemplateProposal (s : σ) (data : List Char) : Except String BlockValidationState :=
  match decodeHexBlk c Hash data with
  | none => .error "Block decode failed"
  | some block =>
    match node.lookupBlockIndex s (block.getHash c.toWriter Hash) with
    | some pindex =>
      if pindex.validScripts then
        .ok ⟨.mInvalid, .blockHeaderDuplicate, "duplicate", "duplicate, duplicate"⟩
      else if pindex.failed then
        .ok ⟨.mInvalid, .blockHeaderDuplicate, "duplicate-invalid",
          "duplicate-invalid, duplicate-invalid"⟩
      else .ok (node.testBlockValidity s block)
    | none => .ok (node.testBlockValidity s block)

def getblocktemplateChecks (status : TemplateNodeStatus) (strMode : String)
    (setClientRules : List String) : Except String Unit :=
  if strMode ≠ "template" then .error "Invalid mode"
  else if !status.connman then .error "Error: Peer-to-peer functionality missing or disabled"
  else if status.nodeCount = 0 ∧ !status.mineBlocksOnDemand then
    .error "Palladium is not connected!"
  else if status.initialBlockDownload then .error "Palladium is downloading blocks..."
  else if "segwit" ∉ setClientRules then
    .error "getblocktemplate must be called with the \"segwit\" rule set."
  else .ok ()

def getblocktemplateHelp (helpText : String) : RPCHelpMan :=
  ⟨helpText, [⟨"template_request", true⟩]⟩

def readMode (modeval : UniValue) : Except String String :=
  match modeval with
  | .str m => .ok m
  | .null => .ok "template"
  | _ => .error "Invalid mode"

def readClientRules (aClientRules : UniValue) : Except String (List String) :=
  match aClientRules with
  | .arr values => values.mapM UniValue.getStr
  | _ => .ok []

def readMaxVersion (uvMaxVersion : UniValue) : Except String Int :=
  if uvMaxVersion.isNum then uvMaxVersion.getInt64 else .ok (-1)

def templateMode (status : TemplateNodeStatus) (oparam : UniValue) (strMode : String) :
    Except String TemplateCall := do
  let setClientRules ← readClientRules (oparam.findValue "rules")
  let _ ← readMaxVersion (oparam.findValue "maxversion")
  getblocktemplateChecks status strMode setClientRules
  pure (.template (oparam.findValue "longpollid").longPollValue)

/-- `getblocktemplate` up to its longpoll branch, on the node state `s`: a proposal's reply,
the template path with its `longpollid`, or the text thrown. -/
def getblocktemplateRequest (helpText : String) (s : σ) (status : TemplateNodeStatus)
    (request : JSONRPCRequest) : Except String TemplateCall := do
  (getblocktemplateHelp helpText).check request
  if (request.param 0).isNull then
    getblocktemplateChecks status "template" []
    pure (.template none)
  else
    let oparam ← (request.param 0).getObj
    let strMode ← readMode (oparam.findValue "mode")
    if strMode = "proposal" then
      match oparam.findValue "data" with
      | .str dataval =>
        pure (.proposal (checkBlockTemplateProposal c Hash node s dataval.toList >>=
          bip22ValidationResult))
      | _ => throw "Missing data String key for proposal"
    else templateMode status oparam strMode

theorem getblocktemplateChecks_eq_ok {status : TemplateNodeStatus} {strMode : String}
    {setClientRules : List String} {u : Unit} :
    getblocktemplateChecks status strMode setClientRules = .ok u ↔
      strMode = "template" ∧ status.connman = true ∧
        (status.nodeCount ≠ 0 ∨ status.mineBlocksOnDemand = true) ∧
        status.initialBlockDownload = false ∧ "segwit" ∈ setClientRules := by
  simp only [getblocktemplateChecks, ite_error_eq_ok]
  simp [imp_iff_not_or]

theorem readMode_eq_ok {modeval : UniValue} {strMode : String} :
    readMode modeval = .ok strMode ↔
      modeval = .str strMode ∨ (modeval = .null ∧ strMode = "template") := by
  cases modeval <;> simp [readMode, eq_comm]

theorem readClientRules_segwit {aClientRules : UniValue} :
    (∃ rules, readClientRules aClientRules = .ok rules ∧ "segwit" ∈ rules) ↔
      ∃ rules : List String, aClientRules = .arr (rules.map .str) ∧ "segwit" ∈ rules := by
  cases aClientRules with
  | arr values => simp only [readClientRules, UniValue.mapM_getStr_eq_ok, UniValue.arr.injEq]
  | _ => simp [readClientRules]

theorem readMaxVersion_isOk {uvMaxVersion : UniValue} :
    (∃ n, readMaxVersion uvMaxVersion = .ok n) ↔
      ∀ val, uvMaxVersion = .num val → (parseInt64 val).isSome := by
  cases uvMaxVersion with
  | num val =>
    simp only [readMaxVersion, UniValue.isNum, UniValue.getType, decide_True, if_true,
      UniValue.getInt64, UniValue.getIntegral_eq_ok, UniValue.num.injEq, exists_eq_left',
      forall_eq', Option.isSome_iff_exists]
  | _ => simp [readMaxVersion, UniValue.isNum, UniValue.getType]

theorem templateMode_eq_template {status : TemplateNodeStatus} {oparam : UniValue}
    {strMode : String} {lpval : Option LongPollValue} :
    templateMode status oparam strMode = .ok (.template lpval) ↔
      (∃ rules : List String, oparam.findValue "rules" = .arr (rules.map .str) ∧
          "segwit" ∈ rules) ∧
        (∀ val, oparam.findValue "maxversion" = .num val → (parseInt64 val).isSome) ∧
        strMode = "template" ∧ status.connman = true ∧
        (status.nodeCount ≠ 0 ∨ status.mineBlocksOnDemand = true) ∧
        status.initialBlockDownload = false ∧ lpval = (oparam.findValue "longpollid").longPollValue := by
  rw [← readClientRules_segwit, ← readMaxVersion_isOk]
  simp only [templateMode, except_bind_eq_ok, pure, Except.pure, Except.ok.injEq,
    TemplateCall.template.injEq]
  constructor
  · rintro ⟨rules, hr, n, hn, _, hchk, rfl⟩
    obtain ⟨hm, hc, hp, hi, hs⟩ := getblocktemplateChecks_eq_ok.mp hchk
    exact ⟨⟨rules, hr, hs⟩, ⟨n, hn⟩, hm, hc, hp, hi, rfl⟩
  · rintro ⟨⟨rules, hr, hs⟩, ⟨n, hn⟩, hm, hc, hp, hi, rfl⟩
    exact ⟨rules, hr, n, hn, (), getblocktemplateChecks_eq_ok.mpr ⟨hm, hc, hp, hi, hs⟩, rfl⟩

theorem getblocktemplateRequest_eq_template {helpText : String} {s : σ}
    {status : TemplateNodeStatus} {request : JSONRPCRequest} {lpval : Option LongPollValue} :
    getblocktemplateRequest c Hash node helpText s status request = .ok (.template lpval) ↔
      request.fHelp = false ∧ request.params.length ≤ 1 ∧
        ∃ members, request.param 0 = .obj members ∧
          ((UniValue.obj members).findValue "mode" = .null ∨
            (UniValue.obj members).findValue "mode" = .str "template") ∧
          (∃ rules : List String, (UniValue.obj members).findValue "rules" = .arr (rules.map .str) ∧
            "segwit" ∈ rules) ∧
          (∀ val, (UniValue.obj members).findValue "maxversion" = .num val →
            (parseInt64 val).isSome) ∧
          status.connman = true ∧ (status.nodeCount ≠ 0 ∨ status.mineBlocksOnDemand = true) ∧
          status.initialBlockDownload = false ∧
          lpval = ((UniValue.obj members).findValue "longpollid").longPollValue := by
  have hnum : (getblocktemplateHelp helpText).isValidNumArgs request.params.length = true ↔
      request.params.length ≤ 1 := by
    simp [getblocktemplateHelp, RPCHelpMan.isValidNumArgs]
  unfold getblocktemplateRequest
  rw [except_bind_eq_ok]
  constructor
  · rintro ⟨_, hchk, h⟩
    obtain ⟨hhelp, hlen⟩ := RPCHelpMan.check_eq_ok.mp hchk
    refine ⟨hhelp, hnum.mp hlen, ?_⟩
    split_ifs at h with hnull
    · obtain ⟨_, hc, -⟩ := except_bind_eq_ok.mp h
      simp [getblocktemplateChecks_eq_ok] at hc
    · obtain ⟨oparam, hobj, h⟩ := except_bind_eq_ok.mp h
      obtain ⟨⟨members, hm⟩, rfl⟩ := UniValue.getObj_eq_ok.mp hobj
      obtain ⟨strMode, hmode, h⟩ := except_bind_eq_ok.mp h
      rw [hm] at hmode h
      split_ifs at h with hp
      · rcases hd : (UniValue.obj members).findValue "data" with _ | _ | _ | dataval | _ | _ <;>
          rw [hd] at h <;> cases h
      · obtain ⟨hr, hv, rfl, hc, hpeer, hi, rfl⟩ := templateMode_eq_template.mp h
        exact ⟨members, hm, (readMode_eq_ok.mp hmode).imp_right And.left |>.symm, hr, hv, hc,
          hpeer, hi, rfl⟩
  · rintro ⟨hhelp, hlen, members, hm, hmode, hr, hv, hc, hpeer, hi, rfl⟩
    refine ⟨(), RPCHelpMan.check_eq_ok.mpr ⟨hhelp, hnum.mpr hlen⟩, ?_⟩
    have hmode' : readMode ((UniValue.obj members).findValue "mode") = .ok "template" := by
      rcases hmode with h | h <;> rw [h] <;> rfl
    simp only [hm, UniValue.isNull_iff, reduceCtorEq, if_false, UniValue.getObj, except_bind_eq_ok]
    exact ⟨_, rfl, _, hmode', by
      rw [if_neg (by decide)]
      exact templateMode_eq_template.mpr ⟨hr, hv, rfl, hc, hpeer, hi, rfl⟩⟩

example (node : ProposalNode Unit) :
    getblocktemplateRequest leCodec oneHash node "help" () ⟨true, 1, false, false⟩
      ⟨false, [.obj [("rules", .arr [.str "segwit", .num ['5']])]]⟩ =
      .error "JSON value is not a string as expected" := by rfl

example (node : ProposalNode Unit) :
    getblocktemplateRequest leCodec oneHash node "help" () ⟨true, 1, false, false⟩
      ⟨false, [.obj [("rules", .arr [.str "segwit"]), ("maxversion", .num "1.5".toList)]]⟩ =
      .error "JSON integer out of range" := by rfl

theorem ite_error_eq_error {ε α : Type} {c : Prop} [Decidable c] {r r' : ε} {x : Except ε α} :
    (if c then .error r else x) = .error r' ↔ (c ∧ r = r') ∨ (¬c ∧ x = .error r') := by
  split_ifs with hc <;> simp [hc]

theorem submitblockChecks_duplicate {s : σ} {hexdata : List Char} {r : String}
    (h : submitblockChecks c Hash node.toSubmitNode s hexdata = .error (.ok (some r)))
    (hr : r = "duplicate" ∨ r = "duplicate-invalid") :
    ∃ block pindex, decodeHexBlk c Hash hexdata = some block ∧
      node.lookupBlockIndex s (block.getHash c.toWriter Hash) = some pindex ∧
      (r = "duplicate" ∧ pindex.validScripts = true ∨
        r = "duplicate-invalid" ∧ pindex.validScripts = false ∧ pindex.failed = true) := by
  unfold submitblockChecks at h
  rcases hd : decodeHexBlk c Hash hexdata with _ | block <;> simp only [hd] at h
  · cases h
  split at h
  · cases h
  rcases hr with rfl | rfl <;>
  · simp only [ite_error_eq_error, Except.error.injEq, Except.ok.injEq, Option.some.injEq] at h
    rcases hl : node.lookupBlockIndex s (block.getHash c.toWriter Hash) with _ | pindex <;>
      simp_all

theorem checkBlockTemplateProposal_agrees_with_submitblock {s : σ} {hexdata : List Char}
    {r : String} (h : submitblockChecks c Hash node.toSubmitNode s hexdata = .error (.ok (some r)))
    (hr : r = "duplicate" ∨ r = "duplicate-invalid") :
    (checkBlockTemplateProposal c Hash node s hexdata >>= bip22ValidationResult) =
      .ok (some r) := by
  obtain ⟨block, pindex, hd, hl, hcase⟩ := submitblockChecks_duplicate c Hash node h hr
  simp only [checkBlockTemplateProposal, hd, hl]
  rcases hcase with ⟨rfl, hv⟩ | ⟨rfl, hv, hf⟩
  · simp only [hv, if_true]
    rfl
  · simp only [hv, hf, Bool.false_eq_true, if_false, if_true]
    rfl

/-- `auxNode` once `auxBlock` is in its index, valid, at height 29000; `TestBlockValidity`
accepts everything. -/
def knownAuxNode : ProposalNode Unit where
  lookupBlockIndex _ hash :=
    if hash = Uint256.zero then some ⟨28999, false, false⟩
    else if hash = oneHash [] then some ⟨29000, true, false⟩ else none
  isCoinBase _ := true
  processNewBlock s _ := (s, true, false, none)
  processNewBlockHeaders s _ := (s, true, ⟨.mValid, .other, "", "Valid"⟩)
  hashGenesisBlock := Uint256.zero
  nAuxpowStartHeight := 29000
  testBlockValidity _ _ := ⟨.mValid, .other, "", "Valid"⟩

set_option maxRecDepth 4000 in
theorem knownAuxBlock_proposal :
    submitblockChecks leCodec oneHash knownAuxNode.toSubmitNode () auxBlockHex =
        .error (.ok (some "duplicate")) ∧
      (checkBlockTemplateProposal leCodec oneHash knownAuxNode () auxBlockHex >>=
        bip22ValidationResult) = .ok (some "duplicate") :=
  have h : submitblockChecks leCodec oneHash knownAuxNode.toSubmitNode () auxBlockHex =
      .error (.ok (some "duplicate")) := by rfl
  ⟨h, checkBlockTemplateProposal_agrees_with_submitblock leCodec oneHash knownAuxNode h (.inl rfl)⟩

end Request

end Palladium
