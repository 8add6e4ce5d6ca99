/-
# The inputs of a PSBT's details

`Psbt::inputs_to_json` (ga_psbt.cpp 324–405) reports every input of a PSBT, looking up
its outpoint among the caller's wallet UTXOs with `take_matching_utxo` (310–322). A wallet
input is reported as the UTXO entry it takes and adds its asset to `wallet_assets`; any
other input is marked `skip_signing` and reports the amount the PSBT carries for it.

`take_matching_utxo`'s comment says it moves the entry it finds out of `utxos`. It
iterates a `const` reference, so `std::move(u)` yields a `const` rvalue, which
`nlohmann::json`'s assignment copies: the entry stays in `utxos`, and every later input
spending the same outpoint takes it again. `takeMatchingUtxo` is the function as the code
computes it; `takeMatchingUtxoMoving` is the function as its comment describes it.

Main results:

* `inputsToJson_eq_ok`: each input is reported from the entry `take_matching_utxo`
  finds in the whole of `utxos`, so two inputs spending one outpoint both take its entry;
* `inputsToJson_non_wallet`: every input that matches no wallet UTXO is marked
  `skip_signing`, whatever became of its amount.

`getDetails_counts_utxo_twice` (in `Psbt/Details`) runs the loop on a PSBT with two inputs
spending one outpoint.
-/
import Gdk.Psbt.Basic

namespace Gdk

/-- `WALLY_SIGHASH_ALL`. -/
def sighashAll : Nat := 0x01

/-- The `utxos` argument of `get_details`: a flat array (deprecated), or the standard
map from each asset to its array, iterated in key order. -/
inductive Utxos where
  | flat (entries : List JsonObj)
  | byAsset (groups : List (String × List JsonObj))

/-! ## take_matching_utxo -/

/-- The test of `take_matching_utxo`:
`!u.empty() && j_uint32ref(u, "pt_idx") == vout && j_strref(u, "txhash") == txhash_hex`. -/
def utxoMatches (u : JsonObj) (txhashHex : String) (vout : Nat) : Except Failure Bool :=
  if u = [] then pure false else do
    if (← uint32Ref u "pt_idx") = vout then return (← strRef u "txhash") = txhashHex
    else pure false

/-- `take_matching_utxo(utxos, txhash_hex, vout, dst)`: the first entry that matches. The
entry is copied, and `utxos` is left as it was. -/
def takeMatchingUtxo (utxos : List JsonObj) (txhashHex : String) (vout : Nat) :
    Except Failure (Option JsonObj) :=
  match utxos with
  | [] => pure none
  | u :: us => do
    if ← utxoMatches u txhashHex vout then pure (some u) else takeMatchingUtxo us txhashHex vout

/-- The lookup of `inputs_to_json` (ga_psbt.cpp 339–351): in the flat array, or in each
asset's array until one matches. -/
def Utxos.take (utxos : Utxos) (txhashHex : String) (vout : Nat) : Except Failure (Option JsonObj) :=
  match utxos with
  | .flat entries => takeMatchingUtxo entries txhashHex vout
  | .byAsset groups => takeFromGroups groups
where
  takeFromGroups : List (String × List JsonObj) → Except Failure (Option JsonObj)
    | [] => pure none
    | (_, entries) :: groups => do
      match ← takeMatchingUtxo entries txhashHex vout with
      | some u => pure (some u)
      | none => takeFromGroups groups

/-! ## inputs_to_json -/

/-- The body of the loop of `inputs_to_json` for one input, given the entry it took
(ga_psbt.cpp 353–402): the input's JSON, and the asset it adds to `wallet_assets`. The
input's best UTXO is fetched when the PSBT has none; the dummy signatures a wallet input
gets, which only change the transaction's size, are left out. -/
def inputJson (session : Session) (isLiquid : Bool) (input : PsetInput) (taken : Option JsonObj) :
    Except Failure (JsonObj × Option String) := do
  let txinUtxo ← match input.bestUtxo with
    | some a => pure a
    | none =>
      match session.fetchUtxo input.txhash input.index with
      | some a => pure a
      | none => throw (.assertion "")
  match taken with
  | some utxo =>
    -- Wallet UTXO
    let asset ← assetRef isLiquid utxo
    let utxo := if input.sighash ≠ 0 ∧ input.sighash ≠ sighashAll then
      utxo.set "user_sighash" (.num input.sighash) else utxo
    let utxo := ((utxo.erase "user_status").erase "witness").erase "script_sig"
    pure (session.addPaths utxo, some asset)
  | none =>
    -- Non-wallet UTXO
    let utxo := input.toJson.set "skip_signing" (.bool true)
    let utxo ←
      if !isLiquid then pure (utxo.set "satoshi" (amountJson txinUtxo))
      else if input.hasAmount then do
        let utxo := utxo.set "satoshi" (amountJson input.amount)
        let utxo ← setPsetField input.psetFields utxo "asset_id" inExplicitAsset true
        let utxo ← setPsetField input.psetFields utxo "value_blind_proof" inValueProof false
        setPsetField input.psetFields utxo "asset_blind_proof" inAssetProof false
      else pure (utxo.set "error" (.str "failed to unblind utxo"))
    let utxo := match input.psbtFields.get? inRedeemScript with
      | some redeemScript => utxo.set "redeem_script" (.str (b2h redeemScript))
      | none => utxo
    pure (utxo, none)

/-- `Psbt::inputs_to_json(session, tx, utxos)`: the JSON of every input, and
`wallet_assets`, the assets of the wallet inputs. -/
def inputsToJson (session : Session) (isLiquid : Bool) (utxos : Utxos) :
    List PsetInput → Except Failure (List JsonObj × List String)
  | [] => pure ([], [])
  | input :: inputs => do
    let taken ← utxos.take input.txhash input.index
    let (json, asset) ← inputJson session isLiquid input taken
    let (jsons, assets) ← inputsToJson session isLiquid utxos inputs
    pure (json :: jsons, asset.toList ++ assets)

/-! ## Each input takes from the whole of utxos -/

section Code

variable {session : Session} {isLiquid : Bool} {utxos : Utxos}

/-- **Each input is reported from the entry found in the whole of `utxos`.** Whatever
the inputs before it took, input `i` is reported from what `take_matching_utxo` finds for
its outpoint, and its asset joins `wallet_assets`. -/
theorem inputsToJson_eq_ok {inputs : List PsetInput} {jsons : List JsonObj}
    {assets : List String} (h : inputsToJson session isLiquid utxos inputs = .ok (jsons, assets)) :
    jsons.length = inputs.length ∧
    ∀ (i : Nat) input, inputs[i]? = some input → ∃ taken asset,
      utxos.take input.txhash input.index = .ok taken ∧
      inputJson session isLiquid input taken = .ok (jsons[i]?.getD [], asset) ∧
      ∀ a ∈ asset, a ∈ assets := by
  induction inputs generalizing jsons assets with
  | nil =>
    cases h
    exact ⟨rfl, fun i inp hi => nomatch List.getElem?_nil.symm.trans hi⟩
  | cons input inputs ih =>
    simp only [inputsToJson, bind, Except.bind] at h
    split at h; · cases h
    next taken htake =>
    split at h; · cases h
    next r hr =>
    split at h; · cases h
    next rs hrs =>
    cases h
    obtain ⟨hlen, hrest⟩ := ih hrs
    refine ⟨congrArg (· + 1) hlen, fun i inp hi => ?_⟩
    cases i with
    | zero =>
      obtain rfl := Option.some.inj (List.getElem?_cons_zero.symm.trans hi)
      refine ⟨taken, r.2, htake, ?_, fun a ha => by simp [ha]⟩
      rw [List.getElem?_cons_zero, Option.getD_some]
      exact hr
    | succ i =>
      rw [List.getElem?_cons_succ] at hi
      obtain ⟨t, asset, ht, hj, ha⟩ := hrest i inp hi
      rw [List.getElem?_cons_succ]
      exact ⟨t, asset, ht, hj, fun a h => List.mem_append_right _ (ha a h)⟩

/-! ## Non-wallet inputs are skipped when signing -/

/-- A non-wallet input is reported with `skip_signing` set, whichever way its amount is
found or fails to be, and adds no asset. The three cases of the best UTXO (in the PSBT,
fetched, missing) all end in the same non-wallet branch. -/
theorem inputJson_non_wallet {input : PsetInput} {json : JsonObj} {asset : Option String}
    (h : inputJson session isLiquid input none = .ok (json, asset)) :
    json.find? "skip_signing" = some (.bool true) ∧ asset = none := by
  unfold inputJson at h
  simp only [pure_bind] at h
  split at h
  on_goal 2 => split at h; on_goal 2 => cases h
  all_goals
    split at h
    · -- Bitcoin: the satoshi of the best UTXO
      cases h
      split <;> simp [JsonObj.find?_set_ne, JsonObj.find?_set_self]
    split at h
    · -- Liquid with an explicit amount: the asset and its two proofs are copied
      obtain ⟨u1, h1, h⟩ := bind_eq_ok.1 h
      obtain ⟨u2, h2, h⟩ := bind_eq_ok.1 h
      obtain ⟨u3, h3, h⟩ := bind_eq_ok.1 h
      cases h
      have hu3 : u3.find? "skip_signing" = some (.bool true) := by
        rw [setPsetField_find?_ne h3 (by decide), setPsetField_find?_ne h2 (by decide),
          setPsetField_find?_ne h1 (by decide)]
        simp [JsonObj.find?_set_ne, JsonObj.find?_set_self]
      split <;> simp [JsonObj.find?_set_ne, hu3]
    · -- Liquid without one: "failed to unblind utxo"
      cases h
      split <;> simp [JsonObj.find?_set_ne, JsonObj.find?_set_self]

/-- **Every input that matches no wallet UTXO is marked `skip_signing`.** -/
theorem inputsToJson_non_wallet {inputs : List PsetInput} {jsons : List JsonObj}
    {assets : List String} (h : inputsToJson session isLiquid utxos inputs = .ok (jsons, assets))
    {i : Nat} {input : PsetInput} {json : JsonObj} (hi : inputs[i]? = some input)
    (hj : jsons[i]? = some json) (hnone : utxos.take input.txhash input.index = .ok none) :
    boolOrFalse json "skip_signing" = true := by
  obtain ⟨-, hall⟩ := inputsToJson_eq_ok h
  obtain ⟨taken, asset, htake, hjson, -⟩ := hall i input hi
  rw [hnone] at htake
  cases htake
  rw [hj, Option.getD_some] at hjson
  rw [boolOrFalse, (inputJson_non_wallet hjson).1]

end Code

/-! ## The moving version -/

/-- `take_matching_utxo` as its comment describes it ("move it into dst"): the entry is
moved out, and the empty JSON left in its place fails the `!u.empty()` test afterwards. -/
def takeMatchingUtxoMoving (utxos : List JsonObj) (txhashHex : String) (vout : Nat) :
    Except Failure (Option JsonObj × List JsonObj) :=
  match utxos with
  | [] => pure (none, [])
  | u :: us => do
    if ← utxoMatches u txhashHex vout then pure (some u, [] :: us)
    else do
      let (taken, us) ← takeMatchingUtxoMoving us txhashHex vout
      pure (taken, u :: us)

/-- `inputs_to_json` over a flat array with the moving `take_matching_utxo`. -/
def inputsToJsonMoving (session : Session) (isLiquid : Bool) (utxos : List JsonObj) :
    List PsetInput → Except Failure (List JsonObj × List String)
  | [] => pure ([], [])
  | input :: inputs => do
    let (taken, utxos) ← takeMatchingUtxoMoving utxos input.txhash input.index
    let (json, asset) ← inputJson session isLiquid input taken
    let (jsons, assets) ← inputsToJsonMoving session isLiquid utxos inputs
    pure (json :: jsons, asset.toList ++ assets)

end Gdk
