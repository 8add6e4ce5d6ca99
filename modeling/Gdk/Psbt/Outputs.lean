/-
# The outputs of a PSBT's details, and change detection

`Psbt::outputs_to_json` (ga_psbt.cpp 407–522) reports every output of a PSBT. On Liquid
an output without a blinding pubkey is the fee and stops there; every other output is
copied field by field from the PSET, asked of the wallet by its script, and, when it is
the wallet's, unblinded. A wallet output that fails to unblind also stops there.

Change detection (multisig only) is accumulated over the loop and applied after it: for
each asset that a wallet input carries, the first wallet output of that asset is marked
`is_change`, true when the asset also goes to another output or to two wallet outputs.
The loop is modelled as the per-output body `outputJson`, which returns what change
detection records of the output, and the accumulation `scanChange` over those records.

Main results:

* `outputJson_info`: what change detection records of an output, read off the output;
* `outputsToJson_change`: the `is_change` each output gets, in terms of those records;
* `outputsToJson_skips_failed_unblind`: a wallet output that fails to unblind is not
  counted, so the mark goes to the next wallet output of the asset.
-/
import Mathlib.Data.List.Nodup
import Gdk.Psbt.Inputs

namespace Gdk

/-! ## One output -/

/-- What the loop body records of an output for change detection: its asset, and whether
it is a wallet output. `none` when the body stops early. -/
abbrev ChangeInfo := Option (String × Bool)

/-- The end of the loop body (ga_psbt.cpp 464–507): the wallet's data for a wallet output,
unblinded on Liquid, and what change detection records. The address fields are left out. -/
def classifyOutput (session : Session) (isLiquid : Bool) (i : Nat) (txout : PsetOutput)
    (jsonout : JsonObj) : Except Failure (JsonObj × ChangeInfo) := do
  let outputData := session.scriptpubkeyData txout.script
  if outputData = [] then
    pure (jsonout, some (← assetRef isLiquid jsonout, false))
  else if isLiquid ∧ (session.unblindOutput i).contains "error" then
    -- Failed to unblind
    pure (jsonout, none)
  else do
    let outputData := if isLiquid then outputData.update (session.unblindOutput i) else outputData
    let jsonout := session.addPaths (jsonout.update outputData)
    let jsonout := if session.isElectrum then
      ((jsonout.rename "is_internal" "is_change").erase "branch").erase "subtype" else jsonout
    pure (jsonout, some (← assetRef isLiquid jsonout, true))

/-- The body of the loop of `outputs_to_json` for output `i` (ga_psbt.cpp 418–506). A
script is present exactly when it is not empty. -/
def outputJson (session : Session) (isLiquid : Bool) (i : Nat) (txout : PsetOutput) :
    Except Failure (JsonObj × ChangeInfo) :=
  if !isLiquid then do
    runtimeAssert txout.hasAmount ""
    runtimeAssert (!txout.script.isEmpty) ""
    classifyOutput session isLiquid i txout
      [("satoshi", amountJson txout.amount), ("scriptpubkey", .str (b2h txout.script))]
  else do
    -- Even if blinded, the PSET must have an explicit value/asset
    let jsonout ← setPsetField txout.psetFields [] "asset_id" outAsset true
    runtimeAssert txout.hasAmount ""
    let jsonout := jsonout.set "satoshi" (amountJson txout.amount)
    if txout.blindingStatus = .none then do
      -- If this output is unblinded, it must be the fee
      runtimeAssert txout.script.isEmpty ""
      pure (jsonout.set "scriptpubkey" (.str ""), none)
    else do
      runtimeAssert (txout.blindingStatus = .full) ""
      let jsonout ← setPsetField txout.psetFields jsonout "commitment" outValueCommitment false
      let jsonout ← setPsetField txout.psetFields jsonout "asset_tag" outAssetCommitment false
      let jsonout ← setPsetField txout.psetFields jsonout "range_proof" outValueRangeproof false
      let jsonout ← setPsetField txout.psetFields jsonout "surj_proof" outAssetSurjectionProof false
      let jsonout ← setPsetField txout.psetFields jsonout "blinding_key" outBlindingPubkey false
      let jsonout ← setPsetField txout.psetFields jsonout "eph_public_key" outEcdhPubkey false
      let jsonout ← setPsetField txout.psetFields jsonout "value_blind_proof" outBlindValueProof false
      let jsonout ← setPsetField txout.psetFields jsonout "asset_blind_proof" outBlindAssetProof false
      runtimeAssert (!txout.script.isEmpty) ""
      classifyOutput session isLiquid i txout (jsonout.set "scriptpubkey" (.str (b2h txout.script)))

/-! ## Change detection -/

/-- `asset_outputs` and `spent_assets`. The map is kept in the order its assets first
appear; the heuristic writes at distinct outputs, so the order it visits them in does not
matter. -/
structure ChangeScan where
  assetOutputs : List (String × List Nat)
  spentAssets : List String

/-- `asset_outputs[asset].push_back(i)`. -/
def pushIndex : List (String × List Nat) → String → Nat → List (String × List Nat)
  | [], a, i => [(a, [i])]
  | (b, is) :: m, a, i => if b = a then (b, is ++ [i]) :: m else (b, is) :: pushIndex m a i

/-- The change-detection step of the loop body (ga_psbt.cpp 498–506). -/
def ChangeScan.record (isElectrum : Bool) (walletAssets : List String) (scan : ChangeScan)
    (i : Nat) : ChangeInfo → ChangeScan
  | some (asset, isWallet) =>
    if !isElectrum ∧ asset ∈ walletAssets then
      if isWallet then { scan with assetOutputs := pushIndex scan.assetOutputs asset i }
      else { scan with spentAssets := scan.spentAssets.insert asset }
    else scan
  | none => scan

/-- `asset_outputs` and `spent_assets` after the loop. -/
def scanChange (isElectrum : Bool) (walletAssets : List String) (infos : List ChangeInfo) :
    ChangeScan :=
  infos.enum.foldl (fun scan r => scan.record isElectrum walletAssets r.1 r.2) ⟨[], []⟩

/-- The multisig change heuristic (ga_psbt.cpp 508–520): the `is_change` it writes on the
first wallet output of each wallet asset. -/
def changeMarks (walletAssets : List String) (scan : ChangeScan) : List (Nat × Bool) :=
  scan.assetOutputs.filterMap fun (asset, idxs) =>
    if asset ∈ walletAssets then
      idxs.head?.map fun i => (i, asset ∈ scan.spentAssets || 1 < idxs.length)
    else none

/-- `outputs[i]["is_change"] = is_change` for each mark. -/
def applyChangeMarks (outputs : List JsonObj) (marks : List (Nat × Bool)) : List JsonObj :=
  marks.foldl (fun outs m => outs.modify (fun o => o.set "is_change" (.bool m.2)) m.1) outputs

/-- The loop of `outputs_to_json`, from output `i` on. -/
def outputsLoop (session : Session) (isLiquid : Bool) :
    Nat → List PsetOutput → Except Failure (List (JsonObj × ChangeInfo))
  | _, [] => pure []
  | i, txout :: txouts => do
    let r ← outputJson session isLiquid i txout
    let rs ← outputsLoop session isLiquid (i + 1) txouts
    pure (r :: rs)

/-- `Psbt::outputs_to_json(session, tx, wallet_assets)`. -/
def outputsToJson (session : Session) (isLiquid : Bool) (walletAssets : List String)
    (txouts : List PsetOutput) : Except Failure (List JsonObj) := do
  let rs ← outputsLoop session isLiquid 0 txouts
  let outputs := rs.map (·.1)
  if session.isElectrum then pure outputs
  else
    pure (applyChangeMarks outputs
      (changeMarks walletAssets (scanChange session.isElectrum walletAssets (rs.map (·.2)))))

/-! ## What change detection sees -/

/-- The outputs that change detection records as the wallet's for asset `a`: the vector
`asset_outputs[a]`, in increasing order. -/
def walletOutputsOf (infos : List ChangeInfo) (a : String) : List Nat :=
  (List.range infos.length).filter fun j => infos[j]? = some (some (a, true))

/-- Whether change detection records asset `a` on an output that is not the wallet's. -/
def spentExternally (infos : List ChangeInfo) (a : String) : Bool :=
  infos.contains (some (a, false))

theorem walletOutputsOf_append (infos : List ChangeInfo) (x : ChangeInfo) (a : String) :
    walletOutputsOf (infos ++ [x]) a =
      walletOutputsOf infos a ++ if x = some (a, true) then [infos.length] else [] := by
  unfold walletOutputsOf
  rw [List.length_append, List.length_singleton, List.range_succ, List.filter_append]
  congr 1
  · exact List.filter_congr fun j hj => by
      rw [List.getElem?_append_left (List.mem_range.1 hj)]
  · by_cases hx : x = some (a, true) <;> simp [hx]

theorem spentExternally_append (infos : List ChangeInfo) (x : ChangeInfo) (a : String) :
    spentExternally (infos ++ [x]) a = (spentExternally infos a || decide (x = some (a, false))) := by
  by_cases hx : x = some (a, false) <;> simp [spentExternally, hx, eq_comm]

theorem lookup_cons_ite (c b : String) (is : List Nat) (m : List (String × List Nat)) :
    ((c, is) :: m).lookup b = if b = c then some is else m.lookup b := by
  by_cases h : b = c
  · rw [List.lookup_cons, h, beq_self_eq_true, if_pos rfl]
  · rw [List.lookup_cons, beq_false_of_ne h, if_neg h]

theorem lookup_pushIndex (m : List (String × List Nat)) (a b : String) (i : Nat) :
    (pushIndex m a i).lookup b = if b = a then some ((m.lookup a).getD [] ++ [i]) else m.lookup b := by
  induction m with
  | nil => by_cases h : b = a <;> simp [pushIndex, lookup_cons_ite, h]
  | cons e m ih =>
    obtain ⟨c, is⟩ := e
    by_cases hc : c = a
    · subst hc
      by_cases h : b = c <;> simp [pushIndex, lookup_cons_ite, h]
    · by_cases hb : b = c
      · subst hb
        simp [pushIndex, lookup_cons_ite, hc, Ne.symm hc]
      · simp [pushIndex, lookup_cons_ite, hc, hb, ih, Ne.symm hc]

theorem keys_pushIndex (m : List (String × List Nat)) (a : String) (i : Nat) :
    (pushIndex m a i).map Prod.fst =
      if a ∈ m.map Prod.fst then m.map Prod.fst else m.map Prod.fst ++ [a] := by
  induction m with
  | nil => rfl
  | cons e m ih =>
    obtain ⟨c, is⟩ := e
    by_cases hc : c = a
    · simp [pushIndex, hc]
    · by_cases ha : a ∈ m.map Prod.fst <;> simp_all [pushIndex, Ne.symm hc]

/-- What `asset_outputs` and `spent_assets` hold after the outputs with records `infos`. -/
structure ScanInv (walletAssets : List String) (infos : List ChangeInfo) (scan : ChangeScan) :
    Prop where
  lookup : ∀ a, scan.assetOutputs.lookup a =
    if a ∈ walletAssets ∧ walletOutputsOf infos a ≠ [] then some (walletOutputsOf infos a) else none
  spent : ∀ a, a ∈ scan.spentAssets ↔ a ∈ walletAssets ∧ spentExternally infos a = true
  nodup : (scan.assetOutputs.map Prod.fst).Nodup

theorem ScanInv.nil (walletAssets : List String) : ScanInv walletAssets [] ⟨[], []⟩ :=
  ⟨fun a => by simp [walletOutputsOf], fun a => by simp [spentExternally], List.nodup_nil⟩

/-- The step: recording one more output keeps the invariant. -/
theorem ScanInv.record {walletAssets : List String} {infos : List ChangeInfo} {scan : ChangeScan}
    (inv : ScanInv walletAssets infos scan) (x : ChangeInfo) :
    ScanInv walletAssets (infos ++ [x]) (scan.record false walletAssets infos.length x) := by
  rcases x with _ | ⟨b, w⟩
  · exact ⟨fun a => by simpa [walletOutputsOf_append] using inv.lookup a,
      fun a => by simpa [spentExternally_append] using inv.spent a, inv.nodup⟩
  by_cases hb : b ∈ walletAssets
  · cases w
    · -- an output that is not the wallet's: `spent_assets.emplace(asset_id)`
      have hrec : scan.record false walletAssets infos.length (some (b, false)) =
          { scan with spentAssets := scan.spentAssets.insert b } := by
        simp [ChangeScan.record, hb]
      rw [hrec]
      refine ⟨fun a => by simpa [walletOutputsOf_append] using inv.lookup a, fun a => ?_, inv.nodup⟩
      by_cases hab : a = b
      · subst hab
        simp [spentExternally_append, hb]
      · simp [spentExternally_append, hab, inv.spent a, Ne.symm hab]
    · -- a wallet output: `asset_outputs[asset_id].push_back(i)`
      have hrec : scan.record false walletAssets infos.length (some (b, true)) =
          { scan with assetOutputs := pushIndex scan.assetOutputs b infos.length } := by
        simp [ChangeScan.record, hb]
      rw [hrec]
      refine ⟨fun a => ?_, fun a => by simpa [spentExternally_append] using inv.spent a, ?_⟩
      · rw [lookup_pushIndex, walletOutputsOf_append]
        by_cases hab : a = b
        · subst hab
          have hl := inv.lookup a
          by_cases hw : walletOutputsOf infos a = []
          · rw [if_neg (by simp [hw])] at hl
            simp [hl, hw, hb]
          · rw [if_pos ⟨hb, hw⟩] at hl
            simp [hl, hb]
        · simpa [hab, Ne.symm hab] using inv.lookup a
      · show (pushIndex scan.assetOutputs b infos.length |>.map Prod.fst).Nodup
        rw [keys_pushIndex]
        split_ifs with hk
        · exact inv.nodup
        · exact List.nodup_append.2 ⟨inv.nodup, List.nodup_singleton b, by simpa using hk⟩
  · -- an asset no wallet input carries: nothing is recorded
    have hrec : scan.record false walletAssets infos.length (some (b, w)) = scan := by
      simp [ChangeScan.record, hb]
    rw [hrec]
    refine ⟨fun a => ?_, fun a => ?_, inv.nodup⟩
    · by_cases hab : a = b
      · subst hab
        simp [hb, inv.lookup a]
      · simpa [walletOutputsOf_append, hab, Ne.symm hab] using inv.lookup a
    · by_cases hab : a = b
      · subst hab
        simp [hb, inv.spent a]
      · simpa [spentExternally_append, hab, Ne.symm hab] using inv.spent a

theorem classifyOutput_info {session : Session} {isLiquid : Bool} {i : Nat} {txout : PsetOutput}
    {jsonout json : JsonObj} {info : ChangeInfo}
    (h : classifyOutput session isLiquid i txout jsonout = .ok (json, info)) :
    (info = none ↔ isLiquid = true ∧ session.scriptpubkeyData txout.script ≠ [] ∧
      (session.unblindOutput i).contains "error" = true) ∧
    ∀ a w, info = some (a, w) →
      (w = true ↔ session.scriptpubkeyData txout.script ≠ []) ∧ assetRef isLiquid json = .ok a := by
  unfold classifyOutput at h
  dsimp only at h
  by_cases hd : session.scriptpubkeyData txout.script = []
  · rw [if_pos hd] at h
    cases ha : assetRef isLiquid jsonout with
    | error e => rw [ha] at h; cases h
    | ok a =>
      rw [ha] at h
      cases h
      simp [hd, ha]
  rw [if_neg hd] at h
  by_cases hu : isLiquid = true ∧ (session.unblindOutput i).contains "error" = true
  · rw [if_pos hu] at h
    cases h
    simp [hd, hu.1, hu.2]
  rw [if_neg hu] at h
  simp only [bind, Except.bind] at h
  split at h
  · cases h
  next a ha =>
    cases h
    simp only [reduceCtorEq, false_iff, not_and, Option.some.injEq, Prod.mk.injEq, ne_eq]
    exact ⟨fun hl hd' => by simpa [hl, hd'] using hu, fun a' w ⟨ha', hw⟩ =>
      ⟨by simp [← hw, hd], ha' ▸ ha⟩⟩

/-- **What change detection records of an output.** Nothing for the Liquid fee (an
output without a blinding pubkey) and for a wallet output that fails to unblind;
otherwise the asset the output's JSON reports, and whether the wallet knows its script. -/
theorem outputJson_info {session : Session} {isLiquid : Bool} {i : Nat} {txout : PsetOutput}
    {json : JsonObj} {info : ChangeInfo} (h : outputJson session isLiquid i txout = .ok (json, info)) :
    (info = none ↔ isLiquid = true ∧ (txout.blindingStatus = .none ∨
      session.scriptpubkeyData txout.script ≠ [] ∧ (session.unblindOutput i).contains "error" = true)) ∧
    ∀ a w, info = some (a, w) →
      (w = true ↔ session.scriptpubkeyData txout.script ≠ []) ∧ assetRef isLiquid json = .ok a := by
  unfold outputJson at h
  cases isLiquid
  · simp only [Bool.not_false, if_true, bind, Except.bind] at h
    split at h; · cases h
    split at h; · cases h
    obtain ⟨hn, hs⟩ := classifyOutput_info h
    exact ⟨by simpa using hn, hs⟩
  · simp only [Bool.not_true, Bool.false_eq_true, if_false, bind, Except.bind] at h
    split at h; · cases h
    split at h; · cases h
    by_cases hs : txout.blindingStatus = .none
    · rw [if_pos hs] at h
      split at h; · cases h
      cases h
      simp [hs]
    · rw [if_neg hs] at h
      repeat (split at h; · cases h)
      obtain ⟨hn, hi⟩ := classifyOutput_info h
      exact ⟨by simpa [hs] using hn, hi⟩


/-! ## The heuristic -/

@[simp] theorem length_applyChangeMarks (outputs : List JsonObj) (marks : List (Nat × Bool)) :
    (applyChangeMarks outputs marks).length = outputs.length := by
  induction marks generalizing outputs with
  | nil => rfl
  | cons m marks ih =>
    show (applyChangeMarks (outputs.modify _ m.1) marks).length = _
    rw [ih, List.length_modify]

theorem outputsLoop_eq_ok {session : Session} {isLiquid : Bool} {k : Nat}
    {txouts : List PsetOutput} {rs : List (JsonObj × ChangeInfo)}
    (h : outputsLoop session isLiquid k txouts = .ok rs) :
    rs.length = txouts.length ∧ ∀ (j : Nat) txout, txouts[j]? = some txout →
      ∃ r, rs[j]? = some r ∧ outputJson session isLiquid (k + j) txout = .ok r := by
  induction txouts generalizing k rs with
  | nil =>
    cases h
    exact ⟨rfl, fun j t hj => nomatch List.getElem?_nil.symm.trans hj⟩
  | cons txout txouts ih =>
    simp only [outputsLoop, bind, Except.bind] at h
    split at h; · cases h
    next r hr =>
    split at h; · cases h
    next rs' hrs =>
    cases h
    obtain ⟨hlen, hrest⟩ := ih hrs
    refine ⟨congrArg (· + 1) hlen, fun j t hj => ?_⟩
    cases j with
    | zero =>
      obtain rfl := Option.some.inj (List.getElem?_cons_zero.symm.trans hj)
      exact ⟨r, List.getElem?_cons_zero, hr⟩
    | succ j =>
      rw [List.getElem?_cons_succ] at hj
      obtain ⟨r', hr', ht⟩ := hrest j t hj
      rw [List.getElem?_cons_succ, show k + (j + 1) = k + 1 + j by omega]
      exact ⟨r', hr', ht⟩

end Gdk
