/-
# Building a PSET from details, and reading it back

`Psbt::from_json` (ga_psbt.cpp 533–642) builds a PSBT from the details `create_transaction`
returns: `wally_psbt_from_tx` makes one input and one output per input and output of the
transaction, and the loops then write into each what the matching details entry says. On
Liquid that is the explicit asset and amount of every input and output, the explicit
proofs of the inputs, and, on every output that is not the fee, the blinding pubkey and
the blind proofs. `Psbt::to_json` (524–531) reads the PSET back through `get_details`.

The writer and the reader are separate code: the writer picks the PSET tags and the byte
order of the libwally setters, the reader those of `set_pset_field`. The main result is
that they agree. For details whose outputs are blinded, whose scripts are the
transaction's, whose asset ids are lowercase hex and whose policy asset balances, the
PSET `from_json` builds reads back, on a session with no part in it, with every input's
and output's satoshi and asset id, and with the fee outputs where the details have them.

`from_json` reads one details entry per input of the transaction and ignores any further
entry, which then still counts in the details' own balance. The round trip needs one entry
per input; with one more, `to_json` fails the fee assertion.

Main results:

* `fromJson_eq_ok`: what `from_json` writes into every input and output;
* `toJson_fromJson`: the round trip;
* `toJson_fromJson_extra_input`: an entry beyond the inputs breaks it;
* `fromJson_entries`: too few entries fail, and entries beyond the inputs and outputs are
  never read.

The libwally calls are not under `src/`: `wally_psbt_from_tx` is modelled from the spec
(it copies each output's commitments, proofs and ECDH key), and the proofs `from_json`
creates are left abstract in `PsetProofs`.
-/
import Gdk.Psbt.Details

namespace Gdk

/-! ## The transaction of the details -/

/-- An input of the transaction `details["transaction"]` parses to: the spent outpoint,
with the txid in display order, and the sequence. -/
structure TxInput where
  txhash : String
  index : Nat
  sequence : Nat
  deriving DecidableEq, Repr

/-- An output of that transaction: its script, its explicit value when it has one, and
the confidential data of a blinded output, each when present. -/
structure TxOutput where
  script : Bytes
  value : Option Amount
  valueCommitment : Option Bytes
  assetCommitment : Option Bytes
  rangeproof : Option Bytes
  surjectionProof : Option Bytes
  ecdhPubkey : Option Bytes
  deriving DecidableEq, Repr

/-- The transaction `Tx(j_bytesref(details, "transaction"), is_liquid)` parses. -/
structure Tx where
  inputs : List TxInput
  outputs : List TxOutput
  deriving DecidableEq, Repr

/-- A blinded output: both commitments, the rangeproof, the surjection proof and the ECDH
key. -/
def TxOutput.IsBlinded (o : TxOutput) : Prop :=
  o.valueCommitment.isSome ∧ o.assetCommitment.isSome ∧ o.rangeproof.isSome ∧
    o.surjectionProof.isSome ∧ o.ecdhPubkey.isSome

instance (o : TxOutput) : Decidable o.IsBlinded :=
  inferInstanceAs (Decidable (_ ∧ _))

/-- The PSET fields `wally_psbt_from_tx` gives an output: its confidential data. -/
def TxOutput.psetFields (o : TxOutput) : FieldMap :=
  [(outValueCommitment, o.valueCommitment), (outAssetCommitment, o.assetCommitment),
    (outValueRangeproof, o.rangeproof), (outAssetSurjectionProof, o.surjectionProof),
    (outEcdhPubkey, o.ecdhPubkey)].filterMap fun (k, v) => v.map (k, ·)

/-- `wally_psbt_from_tx(tx, version, flags)` (libwally, not under `src/`), upgraded to
version 2. Modelled from the spec: an input per transaction input, with no UTXO, amount or
field; an output per transaction output, with its script, its explicit value, and its
confidential data as PSET fields. -/
def psetFromTx (tx : Tx) : Pset where
  inputs := tx.inputs.map fun i => ⟨i.txhash, i.index, i.sequence, 0, false, 0, none, [], []⟩
  outputs := tx.outputs.map fun o => ⟨o.value.isSome, o.value.getD 0, o.script, o.psetFields⟩

/-- The members of the details `from_json` reads. -/
structure PsbtDetails where
  error : String
  transaction : Tx
  transactionInputs : List JsonObj
  transactionOutputs : List JsonObj

/-! ## The libwally proofs and scripts -/

/-- What `from_json` asks of libwally beyond the setters (not under `src/`), `none` where
the call's `GDK_VERIFY` throws. The fresh random nonce each proof takes is left out: the
reader only looks for the proofs. -/
structure PsetProofs where
  /-- `wally_psbt_generate_input_explicit_proofs(satoshi, asset, abf, vbf)`: the explicit
  value proof and asset proof of an input. -/
  inputExplicitProofs : Amount → Bytes → Bytes → Bytes → Option (Bytes × Bytes)
  /-- `wally_explicit_surjectionproof(asset, abf, asset_commitment)`. -/
  explicitSurjectionproof : Bytes → Bytes → Bytes → Option Bytes
  /-- `wally_explicit_rangeproof(satoshi, vbf, value_commitment, asset_commitment)`. -/
  explicitRangeproof : Amount → Bytes → Bytes → Bytes → Option Bytes
  /-- `witness_script(script, flags)`: with `WALLY_SCRIPT_SHA256` when the flag is set,
  with `WALLY_SCRIPT_HASH160` otherwise. -/
  witnessScript : Bytes → Bool → Bytes

/-- `address_type::p2sh_p2wpkh`. -/
def addressTypeP2shP2wpkh : String := "p2sh-p2wpkh"
/-- `address_type::csv`. -/
def addressTypeCsv : String := "csv"
/-- `address_type::p2wsh`. -/
def addressTypeP2wsh : String := "p2wsh"

/-! ## from_json -/

/-- `j_bytesref(j, key)`: a hex member, decoded. -/
def bytesRef (o : JsonObj) (key : String) : Except Failure Bytes := do
  match h2b (← strRef o key) with
  | some b => pure b
  | none => throw .exception

/-- `j_rbytesref(j, key)`: a hex member, decoded and reversed (asset ids, blinders). -/
def rbytesRef (o : JsonObj) (key : String) : Except Failure Bytes := do
  match h2bRev (← strRef o key) with
  | some b => pure b
  | none => throw .exception

/-- `add_keypaths(session, keypaths, utxo)` (ga_psbt.cpp 108–131): the keys of a wallet
UTXO. It reads the UTXO's `subaccount` and `pointer` and takes the Green key (multisig)
and the user's key; the keypaths it adds are not read by the modelled code and are left
out. -/
def addKeypaths (session : Session) (utxo : JsonObj) : Except Failure (List Bytes) := do
  let keys := session.keysFromUtxo utxo
  let _ ← uint32Ref utxo "subaccount"
  let _ ← uint32Ref utxo "pointer"
  -- keys.at(user_key_index), after the Green key on multisig
  let userKeyIndex := if session.isElectrum then 0 else 1
  if keys.length ≤ userKeyIndex then throw .exception
  pure keys

/-- `add_input_scripts(psbt_fields, utxo, keys)` (ga_psbt.cpp 133–151). -/
def addInputScripts (proofs : PsetProofs) (psbtFields : FieldMap) (utxo : JsonObj)
    (keys : List Bytes) : Except Failure FieldMap := do
  let addrType ← strRef utxo "address_type"
  if addrType = addressTypeP2shP2wpkh then
    match keys.head? with
    | some pubKey => pure (psbtFields.set inRedeemScript (proofs.witnessScript pubKey false))
    | none => throw .exception
  else if addrType = addressTypeCsv ∨ addrType = addressTypeP2wsh then do
    let prevoutScript ← bytesRef utxo "prevout_script"
    pure ((psbtFields.set inWitnessScript prevoutScript).set inRedeemScript
      (proofs.witnessScript prevoutScript true))
  else pure psbtFields

/-- Wallet UTXO: add the relevant keypaths and the input's scripts (ga_psbt.cpp 560–564). -/
def addWalletInputData (session : Session) (proofs : PsetProofs) (pin : PsetInput)
    (input : JsonObj) : Except Failure PsetInput :=
  if session.isWalletUtxo input then do
    let keys ← addKeypaths session input
    pure { pin with psbtFields := ← addInputScripts proofs pin.psbtFields input keys }
  else pure pin

/-- Add the input UTXO when the PSBT has none (ga_psbt.cpp 572–577): the transaction
`get_raw_transaction_details` fetches, and its output `pt_idx`. -/
def addInputUtxo (session : Session) (pin : PsetInput) (input : JsonObj) :
    Except Failure PsetInput :=
  match pin.bestUtxo with
  | some _ => pure pin
  | none => do
    let vout ← uint32Ref input "pt_idx"
    match session.fetchUtxo (← strRef input "txhash") vout with
    | some a => pure { pin with bestUtxo := some a }
    | none => throw .exception

/-- The body of the input loop of `from_json` (ga_psbt.cpp 555–585). -/
def inputFromJson (session : Session) (proofs : PsetProofs) (isLiquid : Bool) (pin : PsetInput)
    (input : JsonObj) : Except Failure PsetInput := do
  let pin ← addWalletInputData session proofs pin input
  if !isLiquid then addInputUtxo session pin input
  else do
    -- Add the input asset and amount
    let assetId ← rbytesRef input "asset_id"
    let satoshi ← amountRef input
    let pin ← addInputUtxo session
      { pin with psetFields := pin.psetFields.set inExplicitAsset assetId, hasAmount := true,
                 amount := satoshi } input
    -- Create asset and value explicit proofs
    let abf ← rbytesRef input "assetblinder"
    let vbf ← rbytesRef input "amountblinder"
    match proofs.inputExplicitProofs satoshi assetId abf vbf with
    | some (valueProof, assetProof) =>
      let fields := (pin.psetFields.set inValueProof valueProof).set inAssetProof assetProof
      pure { pin with psetFields := fields }
    | none => throw .exception

/-- The blinding data of an output that is not the fee (ga_psbt.cpp 612–639). The blinder
index it also sets is read by nothing modelled and is left out. -/
def addOutputBlinding (proofs : PsetProofs) (pout : PsetOutput) (output : JsonObj)
    (assetId : Bytes) (satoshi : Amount) : Except Failure PsetOutput := do
  let blindingPubkey ← bytesRef output "blinding_key"
  let pout := { pout with psetFields := pout.psetFields.set outBlindingPubkey blindingPubkey }
  -- Create asset and value explicit proofs
  let vbf ← rbytesRef output "amountblinder"
  let assetCommitment := (pout.psetFields.get? outAssetCommitment).getD []
  let abf ← rbytesRef output "assetblinder"
  runtimeAssert (!assetCommitment.isEmpty) ""
  let some sjProof := proofs.explicitSurjectionproof assetId abf assetCommitment
    | throw .exception
  let pout := { pout with psetFields := pout.psetFields.set outBlindAssetProof sjProof }
  let valueCommitment := (pout.psetFields.get? outValueCommitment).getD []
  runtimeAssert (!valueCommitment.isEmpty) ""
  let some rangeProof := proofs.explicitRangeproof satoshi vbf valueCommitment assetCommitment
    | throw .exception
  runtimeAssert (!rangeProof.isEmpty) ""
  pure { pout with psetFields := pout.psetFields.set outBlindValueProof rangeProof }

/-- The Liquid part of the output loop's body (ga_psbt.cpp 596–639): the asset and the
amount, then the blinding data unless the output is the fee. -/
def addOutputLiquidData (proofs : PsetProofs) (pout : PsetOutput) (output : JsonObj) :
    Except Failure PsetOutput := do
  -- Add the output asset and amount
  let assetId ← rbytesRef output "asset_id"
  let satoshi ← amountRef output
  let pout := { pout with psetFields := pout.psetFields.set outAsset assetId, hasAmount := true,
                          amount := satoshi }
  if output.jStrOrEmpty "scriptpubkey" = "" then pure pout -- Skip remaining fields for fee outputs
  else addOutputBlinding proofs pout output assetId satoshi

/-- The body of the output loop of `from_json` (ga_psbt.cpp 590–640). -/
def outputFromJson (session : Session) (proofs : PsetProofs) (isLiquid : Bool)
    (pout : PsetOutput) (output : JsonObj) : Except Failure PsetOutput := do
  if session.isWalletUtxo output then
    -- Wallet UTXO: add the relevant keypaths
    let _ ← addKeypaths session output
  if !isLiquid then pure pout else addOutputLiquidData proofs pout output

/-- A loop of `from_json`: element `i` of the PSBT written from `entries.at(i)`, for every
element. -/
def forEachEntry {α : Type} (body : α → JsonObj → Except Failure α) :
    List α → List JsonObj → Except Failure (List α)
  | [], _ => pure []
  | _ :: _, [] => throw .exception
  | x :: xs, entry :: entries => do
    let x ← body x entry
    let xs ← forEachEntry body xs entries
    pure (x :: xs)

/-- `Psbt::from_json(session, details)`. The original version it records is read only by
`to_base64` and is left out. -/
def fromJson (session : Session) (proofs : PsetProofs) (isLiquid : Bool) (details : PsbtDetails) :
    Except Failure Pset := do
  runtimeAssert (details.error = "") ""
  let pset := psetFromTx details.transaction
  let inputs ← forEachEntry (inputFromJson session proofs isLiquid) pset.inputs
    details.transactionInputs
  let outputs ← forEachEntry (outputFromJson session proofs isLiquid) pset.outputs
    details.transactionOutputs
  pure ⟨inputs, outputs⟩

/-- `Psbt::to_json(session, utxos)`: the details, and `is_partial`, whether some input is
not the wallet's. -/
def toJson (session : Session) (isLiquid : Bool) (pset : Pset) (utxos : Utxos) :
    Except Failure (Details × Bool) := do
  let result ← getDetails session isLiquid pset utxos
  let numWalletInputs := (result.transactionInputs.filter session.isWalletUtxo).length
  pure (result, numWalletInputs ≠ result.transactionInputs.length)

/-! ## What from_json writes -/

/-- The keys of the confidential data of an output. -/
def blindedKeys : List Nat :=
  [outValueCommitment, outAssetCommitment, outValueRangeproof, outAssetSurjectionProof,
    outEcdhPubkey]

theorem get?_filterMap_cons (k' : Nat) (v : Option Bytes) (l : List (Nat × Option Bytes))
    (k : Nat) :
    FieldMap.get? (((k', v) :: l).filterMap fun (k, v) => v.map (k, ·)) k =
      if k' = k then v.or (FieldMap.get? (l.filterMap fun (k, v) => v.map (k, ·)) k)
      else FieldMap.get? (l.filterMap fun (k, v) => v.map (k, ·)) k := by
  cases v <;> by_cases h : k' = k <;> simp [FieldMap.get?, h]

theorem TxOutput.get?_psetFields (o : TxOutput) :
    o.psetFields.get? outValueCommitment = o.valueCommitment ∧
    o.psetFields.get? outAssetCommitment = o.assetCommitment ∧
    o.psetFields.get? outValueRangeproof = o.rangeproof ∧
    o.psetFields.get? outAssetSurjectionProof = o.surjectionProof ∧
    o.psetFields.get? outEcdhPubkey = o.ecdhPubkey ∧
    o.psetFields.get? outBlindingPubkey = none := by
  simp [TxOutput.psetFields, get?_filterMap_cons, outValueCommitment, outAssetCommitment,
    outValueRangeproof, outAssetSurjectionProof, outEcdhPubkey, outBlindingPubkey]

/-- What the input loop writes into a Liquid input `pin` from its details entry `input`:
the entry's asset (byte-reversed) and amount, a UTXO, and the two explicit proofs. -/
structure WrittenInput (pin : PsetInput) (input : JsonObj) (pin' : PsetInput) : Prop where
  outpoint : pin'.txhash = pin.txhash ∧ pin'.index = pin.index
  asset : ∃ assetId, rbytesRef input "asset_id" = .ok assetId ∧
    pin'.psetFields.get? inExplicitAsset = some assetId
  amount : pin'.hasAmount = true ∧ amountRef input = .ok pin'.amount
  utxo : pin'.bestUtxo.isSome
  proofs : (pin'.psetFields.get? inValueProof).isSome ∧ (pin'.psetFields.get? inAssetProof).isSome

/-- What the output loop writes into a Liquid output `pout` from its details entry
`output`: the entry's asset (byte-reversed) and amount, keeping the script and the
confidential data; and, unless the entry is the fee, the blinding pubkey and the blind
proofs. -/
structure WrittenOutput (pout : PsetOutput) (output : JsonObj) (pout' : PsetOutput) : Prop where
  script : pout'.script = pout.script
  asset : ∃ assetId, rbytesRef output "asset_id" = .ok assetId ∧
    pout'.psetFields.get? outAsset = some assetId
  amount : pout'.hasAmount = true ∧ amountRef output = .ok pout'.amount
  confidential : ∀ k ∈ blindedKeys, pout'.psetFields.get? k = pout.psetFields.get? k
  fee : output.jStrOrEmpty "scriptpubkey" = "" →
    pout'.psetFields.get? outBlindingPubkey = pout.psetFields.get? outBlindingPubkey
  blinding : output.jStrOrEmpty "scriptpubkey" ≠ "" →
    (pout'.psetFields.get? outBlindingPubkey).isSome ∧
    (pout'.psetFields.get? outBlindValueProof).isSome ∧
    (pout'.psetFields.get? outBlindAssetProof).isSome

section Writer

variable {session : Session} {proofs : PsetProofs}

theorem addWalletInputData_eq_ok {pin pin' : PsetInput} {input : JsonObj}
    (h : addWalletInputData session proofs pin input = .ok pin') :
    ∃ fields, pin' = { pin with psbtFields := fields } := by
  unfold addWalletInputData at h
  split at h
  · simp only [bind, Except.bind] at h
    split at h; · cases h
    split at h; · cases h
    cases h
    exact ⟨_, rfl⟩
  · cases h
    exact ⟨_, rfl⟩

theorem addInputUtxo_eq_ok {pin pin' : PsetInput} {input : JsonObj}
    (h : addInputUtxo session pin input = .ok pin') :
    ∃ a, pin' = { pin with bestUtxo := some a } := by
  unfold addInputUtxo at h
  split at h
  next a ha =>
    cases h
    obtain ⟨_, _, _, _, _, _, b, _, _⟩ := pin
    cases ha
    exact ⟨a, rfl⟩
  next =>
    simp only [bind, Except.bind] at h
    split at h; · cases h
    split at h; · cases h
    split at h
    · cases h
      exact ⟨_, rfl⟩
    · cases h

/-- The input loop's body on Liquid. -/
theorem inputFromJson_liquid {pin pin' : PsetInput} {input : JsonObj}
    (h : inputFromJson session proofs true pin input = .ok pin') : WrittenInput pin input pin' := by
  simp only [inputFromJson, Bool.not_true, Bool.false_eq_true, if_false, bind, Except.bind] at h
  split at h; · cases h
  next pin1 h1 =>
  split at h; · cases h
  next assetId ha =>
  split at h; · cases h
  next satoshi hs =>
  split at h; · cases h
  next pin2 h2 =>
  split at h; · cases h
  split at h; · cases h
  split at h
  · cases h
    obtain ⟨fields, rfl⟩ := addWalletInputData_eq_ok h1
    obtain ⟨a, rfl⟩ := addInputUtxo_eq_ok h2
    have h13 : inAssetProof ≠ inExplicitAsset := by decide
    have h12 : inValueProof ≠ inExplicitAsset := by decide
    have h14 : inAssetProof ≠ inValueProof := by decide
    exact ⟨⟨rfl, rfl⟩, ⟨assetId, ha, by simp [h13, h12]⟩, ⟨rfl, hs⟩, rfl,
      by simp [h14]⟩
  · cases h

theorem addOutputBlinding_eq_ok {pout pout' : PsetOutput} {output : JsonObj} {assetId : Bytes}
    {satoshi : Amount} (h : addOutputBlinding proofs pout output assetId satoshi = .ok pout') :
    ∃ bk sj rp, pout' = { pout with psetFields :=
      (((pout.psetFields.set outBlindingPubkey bk).set outBlindAssetProof sj).set
        outBlindValueProof rp) } := by
  simp only [addOutputBlinding, bind, Except.bind] at h
  split at h; · cases h
  split at h; · cases h
  split at h; · cases h
  split at h; · cases h
  split at h
  · split at h; · cases h
    split at h
    · split at h; · cases h
      cases h
      exact ⟨_, _, _, rfl⟩
    · cases h
  · cases h

theorem outputFromJson_liquid_eq {pout pout' : PsetOutput} {output : JsonObj}
    (h : outputFromJson session proofs true pout output = .ok pout') :
    addOutputLiquidData proofs pout output = .ok pout' := by
  unfold outputFromJson at h
  dsimp only at h
  split at h
  · simp only [bind, Except.bind] at h
    split at h
    · cases h
    · exact h
  · exact h

/-- The output loop's body on Liquid. -/
theorem outputFromJson_liquid {pout pout' : PsetOutput} {output : JsonObj}
    (h : outputFromJson session proofs true pout output = .ok pout') :
    WrittenOutput pout output pout' := by
  have h := outputFromJson_liquid_eq h
  simp only [addOutputLiquidData, bind, Except.bind] at h
  split at h; · cases h
  next assetId ha =>
  split at h; · cases h
  next satoshi hs =>
  have hb : ∀ k ∈ blindedKeys, outAsset ≠ k ∧ outBlindingPubkey ≠ k ∧
      outBlindAssetProof ≠ k ∧ outBlindValueProof ≠ k := by decide
  split at h
  next hfee =>
    cases h
    have h26 : outAsset ≠ outBlindingPubkey := by decide
    exact ⟨rfl, ⟨assetId, ha, by simp⟩, ⟨rfl, hs⟩, fun k hk => by simp [(hb k hk).1],
      fun _ => by simp [h26], fun h => absurd hfee h⟩
  next hfee =>
    obtain ⟨bk, sj, rp, rfl⟩ := addOutputBlinding_eq_ok h
    have h62 : outBlindingPubkey ≠ outAsset := by decide
    have h96 : outBlindValueProof ≠ outBlindingPubkey := by decide
    have ha6 : outBlindAssetProof ≠ outBlindingPubkey := by decide
    have h9a : outBlindValueProof ≠ outBlindAssetProof := by decide
    have ha2 : outBlindAssetProof ≠ outAsset := by decide
    have h92 : outBlindValueProof ≠ outAsset := by decide
    exact ⟨rfl, ⟨assetId, ha, by simp [h92, ha2, h62]⟩, ⟨rfl, hs⟩,
      fun k hk => by simp [(hb k hk).1, (hb k hk).2.1, (hb k hk).2.2.1, (hb k hk).2.2.2],
      fun h => absurd h hfee, fun _ => by simp [h96, ha6, h9a]⟩

theorem forEachEntry_eq_ok {α : Type} {body : α → JsonObj → Except Failure α}
    {xs xs' : List α} {entries : List JsonObj} (h : forEachEntry body xs entries = .ok xs') :
    xs'.length = xs.length ∧ xs.length ≤ entries.length ∧
    ∀ (i : Nat) x entry, xs[i]? = some x → entries[i]? = some entry →
      ∃ x', xs'[i]? = some x' ∧ body x entry = .ok x' := by
  induction xs generalizing entries xs' with
  | nil =>
    cases h
    exact ⟨rfl, Nat.zero_le _, fun i x e hx => nomatch List.getElem?_nil.symm.trans hx⟩
  | cons x xs ih =>
    cases entries with
    | nil => cases h
    | cons entry entries =>
      simp only [forEachEntry, bind, Except.bind] at h
      split at h; · cases h
      next x' h1 =>
      split at h; · cases h
      next xs' hrest =>
      cases h
      obtain ⟨hlen, hle, hall⟩ := ih hrest
      refine ⟨congrArg (· + 1) hlen, Nat.succ_le_succ hle, fun i y e hy he => ?_⟩
      cases i with
      | zero =>
        rw [List.getElem?_cons_zero] at hy he
        obtain rfl := Option.some.inj hy
        obtain rfl := Option.some.inj he
        exact ⟨x', List.getElem?_cons_zero, h1⟩
      | succ i =>
        rw [List.getElem?_cons_succ] at hy he
        rw [List.getElem?_cons_succ]
        exact hall i y e hy he

/-- The loop reads no entry past the last element. -/
theorem forEachEntry_take {α : Type} (body : α → JsonObj → Except Failure α) :
    ∀ (xs : List α) (entries : List JsonObj),
      forEachEntry body xs (entries.take xs.length) = forEachEntry body xs entries
  | [], _ => rfl
  | _ :: _, [] => rfl
  | x :: xs, entry :: entries => by
    simp only [List.length_cons, List.take_succ_cons, forEachEntry, forEachEntry_take body xs]

/-- **What `from_json` writes.** On Liquid the PSET has an input and an output per input
and output of the transaction, each written from its details entry. -/
theorem fromJson_eq_ok {D : PsbtDetails} {pset : Pset}
    (h : fromJson session proofs true D = .ok pset) :
    pset.inputs.length = D.transaction.inputs.length ∧
    D.transaction.inputs.length ≤ D.transactionInputs.length ∧
    pset.outputs.length = D.transaction.outputs.length ∧
    D.transaction.outputs.length ≤ D.transactionOutputs.length ∧
    (∀ (i : Nat) pin input, (psetFromTx D.transaction).inputs[i]? = some pin →
      D.transactionInputs[i]? = some input → ∃ pin', pset.inputs[i]? = some pin' ∧
        WrittenInput pin input pin') ∧
    (∀ (j : Nat) pout output, (psetFromTx D.transaction).outputs[j]? = some pout →
      D.transactionOutputs[j]? = some output → ∃ pout', pset.outputs[j]? = some pout' ∧
        WrittenOutput pout output pout') := by
  simp only [fromJson, bind, Except.bind] at h
  split at h; · cases h
  split at h; · cases h
  next pins hins =>
  split at h; · cases h
  next pouts houts =>
  cases h
  obtain ⟨hli, hlei, hi⟩ := forEachEntry_eq_ok hins
  obtain ⟨hlo, hleo, ho⟩ := forEachEntry_eq_ok houts
  simp only [psetFromTx, List.length_map] at hli hlei hlo hleo
  refine ⟨hli, hlei, hlo, hleo, fun i pin input hp he => ?_, fun j pout output hp he => ?_⟩
  · obtain ⟨pin', hp', hb⟩ := hi i pin input hp he
    exact ⟨pin', hp', inputFromJson_liquid hb⟩
  · obtain ⟨pout', hp', hb⟩ := ho j pout output hp he
    exact ⟨pout', hp', outputFromJson_liquid hb⟩

theorem TxOutput.IsBlinded.get?_isSome {o : TxOutput} (hb : o.IsBlinded) :
    ∀ k ∈ blindedKeys, (o.psetFields.get? k).isSome := by
  obtain ⟨h1, h3, h4, h5, h7⟩ := o.get?_psetFields
  simp only [blindedKeys, List.mem_cons, List.mem_singleton, List.not_mem_nil, or_false]
  rintro k (rfl | rfl | rfl | rfl | rfl)
  · rw [h1]; exact hb.1
  · rw [h3]; exact hb.2.1
  · rw [h4]; exact hb.2.2.1
  · rw [h5]; exact hb.2.2.2.1
  · rw [h7.1]; exact hb.2.2.2.2

end Writer

/-! ## Reading the PSET back -/

section Reader

variable {session : Session}

theorem amountRef_find? {j : JsonObj} {a : Amount} (h : amountRef j = .ok a) :
    j.find? "satoshi" = some (amountJson a) := by
  unfold amountRef at h
  split at h
  next n hn =>
    split_ifs at h with hr
    cases h
    rw [hn, amountJson, UInt64.toNat_ofNat_of_lt (by unfold UInt64.size; omega),
      Int.toNat_of_nonneg hr.1]
  next => cases h

/-- A member `j_rbytesref` decoded from lowercase hex is `b2h_rev` of what it decoded. -/
theorem rbytesRef_find? {j : JsonObj} {key : String} {b : Bytes} (h : rbytesRef j key = .ok b)
    (hl : IsLowerHex (j.jStrOrEmpty key)) : j.find? key = some (.str (b2hRev b)) := by
  simp only [rbytesRef, bind, Except.bind] at h
  split at h; · cases h
  next s hs =>
  split at h
  next b' hb =>
    cases h
    rw [strRef_eq_ok hs] at hl
    rw [b2hRev_of_h2bRev hl hb]
    unfold strRef at hs
    split at hs
    next s' hs' =>
      cases hs
      exact hs'
    next => cases hs
  next => cases h

/-- A Liquid input that carries a UTXO, an amount, its asset and the explicit proofs reads
back, when the wallet does not own it, with that amount and asset and no error. -/
theorem inputJson_foreign {pin : PsetInput} {a : Bytes} (hu : pin.bestUtxo.isSome)
    (hamt : pin.hasAmount = true) (ha : pin.psetFields.get? inExplicitAsset = some a)
    (hp : (pin.psetFields.get? inValueProof).isSome ∧ (pin.psetFields.get? inAssetProof).isSome) :
    ∃ json, inputJson session true pin none = .ok (json, none) ∧
      json.find? "satoshi" = some (amountJson pin.amount) ∧
      json.find? "asset_id" = some (.str (b2hRev a)) ∧ json.find? "error" = none := by
  obtain ⟨u, hu⟩ := Option.isSome_iff_exists.1 hu
  obtain ⟨vp, hvp⟩ := Option.isSome_iff_exists.1 hp.1
  obtain ⟨ap, hap⟩ := Option.isSome_iff_exists.1 hp.2
  cases hr : pin.psbtFields.get? inRedeemScript <;>
    simp only [inputJson, hu, Bool.not_true, Bool.false_eq_true, ↓reduceIte, hamt, setPsetField,
      ha, PsetInput.toJson, hvp, hap, hr, bind_pure_comp, map_pure, pure_eq_ok, Prod.mk.injEq,
      and_true, exists_eq_left', ne_eq, String.reduceEq, not_false_eq_true, JsonObj.find?_set_ne,
      JsonObj.find?_set_self, JsonObj.find?_cons, JsonObj.find?_nil, and_self]

theorem classifyOutput_foreign {i : Nat} {txout : PsetOutput} {jsonout : JsonObj} {s : String}
    (hd : session.scriptpubkeyData txout.script = [])
    (ha : jsonout.find? "asset_id" = some (.str s)) :
    classifyOutput session true i txout jsonout = .ok (jsonout, some (s, false)) := by
  simp [classifyOutput, hd, assetRef, strRef, ha]

/-- The PSET fields `outputs_to_json` reads of a blinded output. -/
def blindingFieldKeys : List Nat :=
  outBlindingPubkey :: outBlindValueProof :: outBlindAssetProof :: blindedKeys

/-- A Liquid output that carries an amount and its asset reads back with them and with its
script: the fee, with no blinding pubkey and no script, and any other output, blinded and
with its blind proofs, when the wallet does not own its script. -/
theorem outputJson_foreign {j : Nat} {txout : PsetOutput} {a : Bytes}
    (hamt : txout.hasAmount = true)
    (ha : txout.psetFields.get? outAsset = some a)
    (hkind : txout.psetFields.get? outBlindingPubkey = none ∧ txout.script = [] ∨
      (∀ k ∈ blindingFieldKeys, (txout.psetFields.get? k).isSome) ∧ txout.script ≠ [] ∧
        session.scriptpubkeyData txout.script = []) :
    ∃ r, outputJson session true j txout = .ok r ∧
      r.1.find? "satoshi" = some (amountJson txout.amount) ∧
      r.1.find? "asset_id" = some (.str (b2hRev a)) ∧
      r.1.jStrOrEmpty "scriptpubkey" = b2h txout.script := by
  rcases hkind with ⟨hb, hs⟩ | ⟨hall, hs, hd⟩
  · have hnone : txout.blindingStatus = .none := by simp [PsetOutput.blindingStatus, hb]
    simp only [outputJson, Bool.not_true, Bool.false_eq_true, ↓reduceIte, setPsetField, ha, hamt,
      runtimeAssert_true, hnone, hs, List.isEmpty_nil, bind_pure_comp, map_pure, pure_eq_ok,
      JsonObj.jStrOrEmpty, JsonObj.jStr, b2h_nil, exists_eq_left', ne_eq, String.reduceEq,
      not_false_eq_true, JsonObj.find?_set_ne, JsonObj.find?_set_self, Option.getD_some, and_self]
  · have hget : ∀ k ∈ blindingFieldKeys, ∃ v, txout.psetFields.get? k = some v :=
      fun k hk => Option.isSome_iff_exists.1 (hall k hk)
    obtain ⟨v6, h6⟩ := hget outBlindingPubkey (by decide)
    obtain ⟨v9, h9⟩ := hget outBlindValueProof (by decide)
    obtain ⟨va, hva⟩ := hget outBlindAssetProof (by decide)
    obtain ⟨v1, h1⟩ := hget outValueCommitment (by decide)
    obtain ⟨v3, h3⟩ := hget outAssetCommitment (by decide)
    obtain ⟨v4, h4⟩ := hget outValueRangeproof (by decide)
    obtain ⟨v5, h5⟩ := hget outAssetSurjectionProof (by decide)
    obtain ⟨v7, h7⟩ := hget outEcdhPubkey (by decide)
    have hfull : txout.blindingStatus = .full := by
      simp [PsetOutput.blindingStatus, h6, h1, h3, h4, h5, h7]
    have hne : txout.script.isEmpty = false := by simpa using hs
    simp only [outputJson, Bool.not_true, Bool.false_eq_true, ↓reduceIte, setPsetField, ha, hamt,
      runtimeAssert_true, hfull, reduceCtorEq, decide_True, h1, h3, h4, h5, h6, h7, h9, hva, hne,
      Bool.not_false, pure_bind, ne_eq, String.reduceEq, not_false_eq_true, JsonObj.find?_set_ne,
      JsonObj.find?_set_self, Option.some.injEq, Json.str.injEq, classifyOutput_foreign hd,
      Except.ok.injEq, JsonObj.jStrOrEmpty, JsonObj.jStr, exists_eq_left', Option.getD_some,
      and_self]

/-- Inputs the wallet does not own read back one by one, and add no wallet asset. -/
theorem inputsToJson_foreign {isLiquid : Bool} {utxos : Utxos} {pins : List PsetInput}
    (h : ∀ pin ∈ pins, utxos.take pin.txhash pin.index = .ok none ∧
      ∃ json, inputJson session isLiquid pin none = .ok (json, none)) :
    ∃ jsons, inputsToJson session isLiquid utxos pins = .ok (jsons, []) := by
  induction pins with
  | nil => exact ⟨[], rfl⟩
  | cons pin pins ih =>
    obtain ⟨ht, json, hj⟩ := h pin (List.mem_cons_self _ _)
    obtain ⟨jsons, hjs⟩ := ih fun p hp => h p (List.mem_cons_of_mem _ hp)
    exact ⟨json :: jsons, by simp [inputsToJson, ht, hj, hjs, bind, Except.bind]⟩

/-- The output loop succeeds when every body does. -/
theorem outputsLoop_ok {isLiquid : Bool} {k : Nat} {txouts : List PsetOutput}
    (h : ∀ (j : Nat) txout, txouts[j]? = some txout →
      ∃ r, outputJson session isLiquid (k + j) txout = .ok r) :
    ∃ rs, outputsLoop session isLiquid k txouts = .ok rs := by
  induction txouts generalizing k with
  | nil => exact ⟨[], rfl⟩
  | cons txout txouts ih =>
    obtain ⟨r, hr⟩ := h 0 txout (by simp)
    rw [Nat.add_zero] at hr
    obtain ⟨rs, hrs⟩ := ih fun j t hj => by
      rw [show k + 1 + j = k + (j + 1) by omega]
      exact h (j + 1) t (by simpa using hj)
    exact ⟨r :: rs, by simp [outputsLoop, hr, hrs, bind, Except.bind]⟩

/-- With no wallet asset there is no change to detect: the outputs are reported as the
loop reports them. -/
theorem outputsToJson_no_wallet_assets {isLiquid : Bool} {txouts : List PsetOutput}
    {rs : List (JsonObj × ChangeInfo)} (h : outputsLoop session isLiquid 0 txouts = .ok rs) :
    outputsToJson session isLiquid [] txouts = .ok (rs.map (·.1)) := by
  have hm : ∀ scan, changeMarks [] scan = [] := by simp [changeMarks]
  cases hE : session.isElectrum <;>
    simp [outputsToJson, h, hE, hm, applyChangeMarks, bind, Except.bind]

end Reader

/-! ## The round trip -/

section RoundTrip

variable {session : Session} {proofs : PsetProofs} {D : PsbtDetails} {pset : Pset}

theorem Forall₂_getElem? {α β : Type} {R : α → β → Prop} {l : List α} {l' : List β}
    (h : List.Forall₂ R l l') {i : Nat} {x : α} {y : β} (hx : l[i]? = some x)
    (hy : l'[i]? = some y) :
    R x y := by
  obtain ⟨h1, rfl⟩ := List.getElem?_eq_some_iff.1 hx
  obtain ⟨h2, rfl⟩ := List.getElem?_eq_some_iff.1 hy
  exact h.get h1 h2

/-- Two lists whose entries agree index by index have the same filtered sums. -/
theorem sum_filter_map_congr {α β : Type} {xs : List α} {ys : List β} {p : α → Bool}
    {q : β → Bool}    {f : α → Nat} {g : β → Nat} (hlen : xs.length = ys.length)
    (h : ∀ (i : Nat) x y, xs[i]? = some x → ys[i]? = some y → p x = q y ∧ f x = g y) :
    ((xs.filter p).map f).sum = ((ys.filter q).map g).sum := by
  induction xs generalizing ys with
  | nil =>
    cases ys with
    | nil => rfl
    | cons y ys => exact absurd hlen.symm (Nat.succ_ne_zero _)
  | cons x xs ih =>
    cases ys with
    | nil => exact absurd hlen (Nat.succ_ne_zero _)
    | cons y ys =>
      obtain ⟨hp, hf⟩ := h 0 x y List.getElem?_cons_zero List.getElem?_cons_zero
      have hrest := ih (Nat.succ.inj hlen) fun i a b ha hb =>
        h (i + 1) a b (by rw [List.getElem?_cons_succ]; exact ha)
          (by rw [List.getElem?_cons_succ]; exact hb)
      rw [List.filter_cons, List.filter_cons, hp]
      split
      · rw [List.map_cons, List.map_cons, List.sum_cons, List.sum_cons, hf, hrest]
      · exact hrest

theorem amountRef_of_find? {j : JsonObj} {a : Amount}
    (h : j.find? "satoshi" = some (amountJson a)) :
    amountRef j = .ok a := by
  have ha := a.toNat_lt_size
  have hr : (0 : Int) ≤ (a.toNat : Int) ∧ (a.toNat : Int) < 2 ^ 64 := by
    unfold UInt64.size at ha
    omega
  simp only [amountRef, h, amountJson, if_pos hr, Int.toNat_ofNat, pure_eq_ok]
  exact UInt64.toNat.inj (UInt64.toNat_ofNat_of_lt ha)

/-- **The inputs read back.** Every input of the PSET `from_json` builds reads back, on a
session that owns none of the spent outpoints, with the satoshi and the asset id of its
details entry and no error. -/
theorem inputsToJson_fromJson (hpset : fromJson session proofs true D = .ok pset)
    (hinputs : D.transactionInputs.length = D.transaction.inputs.length)
    (hhex : ∀ input ∈ D.transactionInputs, IsLowerHex (input.jStrOrEmpty "asset_id"))
    {utxos : Utxos}
    (hutxos : ∀ txin ∈ D.transaction.inputs, utxos.take txin.txhash txin.index = .ok none) :
    ∃ ins, inputsToJson session true utxos pset.inputs = .ok (ins, []) ∧
      ins.length = D.transactionInputs.length ∧
      ∀ (i : Nat) input, D.transactionInputs[i]? = some input → ∃ r, ins[i]? = some r ∧
        r.find? "satoshi" = input.find? "satoshi" ∧
        r.find? "asset_id" = input.find? "asset_id" ∧ r.find? "error" = none ∧ Readable r := by
  obtain ⟨hlen, -, -, -, hw, -⟩ := fromJson_eq_ok hpset
  -- input `i` of the PSET is written from entry `i`, and reads back as the entry says
  have hread : ∀ (i : Nat) pin', pset.inputs[i]? = some pin' →
      utxos.take pin'.txhash pin'.index = .ok none ∧ ∃ input json,
        D.transactionInputs[i]? = some input ∧
        inputJson session true pin' none = .ok (json, none) ∧
        json.find? "satoshi" = input.find? "satoshi" ∧
        json.find? "asset_id" = input.find? "asset_id" ∧
        json.find? "error" = none ∧ Readable json := by
    intro i pin' hi
    obtain ⟨txin, htx⟩ := exists_getElem?_of_length_eq hlen hi
    obtain ⟨input, hin⟩ := exists_getElem?_of_length_eq (hlen.trans hinputs.symm) hi
    obtain ⟨pin'', hp, hwr⟩ :=
      hw i ⟨txin.txhash, txin.index, txin.sequence, 0, false, 0, none, [], []⟩ input
        (by simp [psetFromTx, htx]) hin
    obtain rfl : pin'' = pin' := Option.some.inj (hp.symm.trans hi)
    obtain ⟨a, ha, hfa⟩ := hwr.asset
    obtain ⟨json, hj, hs, has, he⟩ := inputJson_foreign hwr.utxo hwr.amount.1 hfa hwr.proofs
    refine ⟨?_, input, json, hin, hj, ?_, ?_, he, ⟨_, has⟩, _, amountRef_of_find? hs⟩
    · rw [hwr.outpoint.1, hwr.outpoint.2]
      exact hutxos txin (List.mem_iff_getElem?.2 ⟨i, htx⟩)
    · rw [hs, amountRef_find? hwr.amount.2]
    · rw [has, rbytesRef_find? ha (hhex input (List.mem_iff_getElem?.2 ⟨i, hin⟩))]
  obtain ⟨ins, hins⟩ := inputsToJson_foreign fun pin' hmem => by
    obtain ⟨i, hi⟩ := List.mem_iff_getElem?.1 hmem
    obtain ⟨ht, -, json, -, hj, -⟩ := hread i pin' hi
    exact ⟨ht, json, hj⟩
  obtain ⟨hlen', hall⟩ := inputsToJson_eq_ok hins
  refine ⟨ins, hins, by rw [hlen', hlen, hinputs], fun i input hin => ?_⟩
  obtain ⟨pin', hi⟩ := exists_getElem?_of_length_eq (hinputs.trans hlen.symm) hin
  obtain ⟨ht, input', json, hin', hj, hfacts⟩ := hread i pin' hi
  obtain rfl : input' = input := Option.some.inj (hin'.symm.trans hin)
  obtain ⟨taken, asset, ht', hj', -⟩ := hall i pin' hi
  obtain rfl : taken = none := Except.ok.inj (ht'.symm.trans ht)
  obtain ⟨r, hr⟩ := exists_getElem?_of_length_eq hlen'.symm hi
  have hjr : (json, none) = (r, asset) := by
    rw [hr] at hj'
    exact Except.ok.inj (hj.symm.trans hj')
  obtain ⟨rfl, -⟩ := Prod.mk.inj hjr
  exact ⟨json, hr, hfacts⟩

/-- **The outputs read back.** Every output of the PSET `from_json` builds reads back, on a
session that owns none of the output scripts, with the satoshi, the asset id and the
`scriptpubkey` of its details entry. -/
theorem outputsToJson_fromJson (hpset : fromJson session proofs true D = .ok pset)
    (hblinded : ∀ o ∈ D.transaction.outputs, o.script ≠ [] → o.IsBlinded)
    (hscripts : List.Forall₂
      (fun output (o : TxOutput) => output.jStrOrEmpty "scriptpubkey" = b2h o.script)
      D.transactionOutputs D.transaction.outputs)
    (hhex : ∀ output ∈ D.transactionOutputs, IsLowerHex (output.jStrOrEmpty "asset_id"))
    (hown : ∀ o ∈ D.transaction.outputs, session.scriptpubkeyData o.script = []) :
    ∃ outs, outputsToJson session true [] pset.outputs = .ok outs ∧
      outs.length = D.transactionOutputs.length ∧
      ∀ (j : Nat) output, D.transactionOutputs[j]? = some output → ∃ r, outs[j]? = some r ∧
        r.find? "satoshi" = output.find? "satoshi" ∧
        r.find? "asset_id" = output.find? "asset_id" ∧
        r.jStrOrEmpty "scriptpubkey" = output.jStrOrEmpty "scriptpubkey" ∧ Readable r := by
  obtain ⟨-, -, hlen, -, -, hw⟩ := fromJson_eq_ok hpset
  have hlenD := hscripts.length_eq
  -- output `j` of the PSET is written from entry `j`, and reads back as the entry says
  have hread : ∀ (j : Nat) pout', pset.outputs[j]? = some pout' → ∃ output r,
      D.transactionOutputs[j]? = some output ∧ outputJson session true j pout' = .ok r ∧
      r.1.find? "satoshi" = output.find? "satoshi" ∧
      r.1.find? "asset_id" = output.find? "asset_id" ∧
      r.1.jStrOrEmpty "scriptpubkey" = output.jStrOrEmpty "scriptpubkey" ∧ Readable r.1 := by
    intro j pout' hj
    obtain ⟨o, ho⟩ := exists_getElem?_of_length_eq hlen hj
    obtain ⟨output, hout⟩ := exists_getElem?_of_length_eq (hlen.trans hlenD.symm) hj
    obtain ⟨pout'', hp, hwr⟩ :=
      hw j ⟨o.value.isSome, o.value.getD 0, o.script, o.psetFields⟩ output
        (by simp [psetFromTx, ho]) hout
    obtain rfl : pout'' = pout' := Option.some.inj (hp.symm.trans hj)
    have hmem : o ∈ D.transaction.outputs := List.mem_iff_getElem?.2 ⟨j, ho⟩
    have hspk : output.jStrOrEmpty "scriptpubkey" = b2h pout''.script := by
      rw [hwr.script]
      exact Forall₂_getElem? hscripts hout ho
    obtain ⟨a, ha, hfa⟩ := hwr.asset
    have hkind : pout''.psetFields.get? outBlindingPubkey = none ∧ pout''.script = [] ∨
        (∀ k ∈ blindingFieldKeys, (pout''.psetFields.get? k).isSome) ∧
          pout''.script ≠ [] ∧
          session.scriptpubkeyData pout''.script = [] := by
      by_cases hfee : output.jStrOrEmpty "scriptpubkey" = ""
      · refine .inl ⟨(hwr.fee hfee).trans o.get?_psetFields.2.2.2.2.2, ?_⟩
        rwa [hspk, b2h_eq_empty] at hfee
      · have hs : pout''.script ≠ [] := fun h => hfee (by rw [hspk, h, b2h_nil])
        refine .inr ⟨?_, hs, by rw [hwr.script]; exact hown o hmem⟩
        obtain ⟨h6, h9, ha⟩ := hwr.blinding hfee
        simp only [blindingFieldKeys, List.mem_cons]
        rintro k (rfl | rfl | rfl | hk)
        · exact h6
        · exact h9
        · exact ha
        · rw [hwr.confidential k hk]
          exact (hblinded o hmem (by rwa [hwr.script] at hs)).get?_isSome k hk
    obtain ⟨r, hr, hs, has, hsp⟩ := outputJson_foreign hwr.amount.1 hfa hkind
    refine ⟨output, r, hout, hr, ?_, ?_, by rw [hsp, hspk], ⟨_, has⟩, _,
      amountRef_of_find? hs⟩
    · rw [hs, amountRef_find? hwr.amount.2]
    · rw [has, rbytesRef_find? ha (hhex output (List.mem_iff_getElem?.2 ⟨j, hout⟩))]
  obtain ⟨rs, hrs⟩ : ∃ rs, outputsLoop session true 0 pset.outputs = .ok rs :=
    outputsLoop_ok fun j pout' hj => by
      obtain ⟨-, r, -, hr, -⟩ := hread j pout' hj
      exact ⟨r, by rw [Nat.zero_add]; exact hr⟩
  obtain ⟨hlenrs, hall⟩ := outputsLoop_eq_ok hrs
  refine ⟨_, outputsToJson_no_wallet_assets hrs, by simp [hlenrs, hlen, hlenD],
    fun j output hout => ?_⟩
  obtain ⟨pout', hj⟩ := exists_getElem?_of_length_eq (hlenD.trans hlen.symm) hout
  obtain ⟨output', r, hout', hr, hfacts⟩ := hread j pout' hj
  obtain rfl : output' = output := Option.some.inj (hout'.symm.trans hout)
  obtain ⟨r', hr', hj'⟩ := hall j pout' hj
  rw [Nat.zero_add, hr] at hj'
  obtain rfl : r = r' := Except.ok.inj hj'
  exact ⟨r.1, by simp [hr'], hfacts⟩

/-- **`to_json` reads back what `from_json` wrote.** Take Liquid details `D` that
`from_json` accepts, with one entry per input of the transaction, whose outputs other
than the fee are blinded, whose `scriptpubkey`s are the transaction's scripts, whose asset
ids are lowercase hex, and whose policy asset balances. On a session that owns none of the
spent outpoints and none of the output scripts, `to_json` of the PSET succeeds; it reports
every input with the satoshi and asset id of its entry and no error, and every output with
the satoshi and asset id of its entry and an empty `scriptpubkey` exactly where the entry
has one. -/
theorem toJson_fromJson (hpset : fromJson session proofs true D = .ok pset)
    (hinputs : D.transactionInputs.length = D.transaction.inputs.length)
    (hblinded : ∀ o ∈ D.transaction.outputs, o.script ≠ [] → o.IsBlinded)
    (hscripts : List.Forall₂
      (fun output (o : TxOutput) => output.jStrOrEmpty "scriptpubkey" = b2h o.script)
      D.transactionOutputs D.transaction.outputs)
    (hhex : ∀ entry ∈ D.transactionInputs ++ D.transactionOutputs,
      IsLowerHex (entry.jStrOrEmpty "asset_id"))
    (hbalance :
      ((D.transactionInputs.filter (policyOf true session.policyAsset)).map satoshiOf).sum =
      spendTotal true session.policyAsset D.transactionOutputs +
        feeTotal true session.policyAsset D.transactionOutputs)
    {utxos : Utxos}
    (hutxos : ∀ txin ∈ D.transaction.inputs, utxos.take txin.txhash txin.index = .ok none)
    (hown : ∀ o ∈ D.transaction.outputs, session.scriptpubkeyData o.script = []) :
    ∃ R isPartial, toJson session true pset utxos = .ok (R, isPartial) ∧
      R.transactionInputs.length = D.transactionInputs.length ∧
      (∀ (i : Nat) input, D.transactionInputs[i]? = some input →
        ∃ r, R.transactionInputs[i]? = some r ∧ r.find? "satoshi" = input.find? "satoshi" ∧
          r.find? "asset_id" = input.find? "asset_id" ∧ r.find? "error" = none) ∧
      R.transactionOutputs.length = D.transactionOutputs.length ∧
      ∀ (j : Nat) output, D.transactionOutputs[j]? = some output →
        ∃ r, R.transactionOutputs[j]? = some r ∧ r.find? "satoshi" = output.find? "satoshi" ∧
          r.find? "asset_id" = output.find? "asset_id" ∧
          (r.jStrOrEmpty "scriptpubkey" = "" ↔ output.jStrOrEmpty "scriptpubkey" = "") := by
  obtain ⟨ins, hins, hlenI, hI⟩ :=
    inputsToJson_fromJson hpset hinputs (fun e he => hhex e (List.mem_append_left _ he)) hutxos
  obtain ⟨outs, houts, hlenO, hO⟩ :=
    outputsToJson_fromJson hpset hblinded hscripts
      (fun e he => hhex e (List.mem_append_right _ he)) hown
  -- the reported entries agree with the details' at every index
  have hatI : ∀ (i : Nat) r, ins[i]? = some r →
      ∃ input, D.transactionInputs[i]? = some input ∧
      r.find? "satoshi" = input.find? "satoshi" ∧ r.find? "asset_id" = input.find? "asset_id" ∧
      r.find? "error" = none ∧ Readable r := by
    intro i r hr
    obtain ⟨input, hin⟩ := exists_getElem?_of_length_eq hlenI hr
    obtain ⟨r', hr', hfacts⟩ := hI i input hin
    obtain rfl : r' = r := Option.some.inj (hr'.symm.trans hr)
    exact ⟨input, hin, hfacts⟩
  have hatO : ∀ (j : Nat) r, outs[j]? = some r →
      ∃ output, D.transactionOutputs[j]? = some output ∧
      r.find? "satoshi" = output.find? "satoshi" ∧
      r.find? "asset_id" = output.find? "asset_id" ∧
      r.jStrOrEmpty "scriptpubkey" = output.jStrOrEmpty "scriptpubkey" ∧ Readable r := by
    intro j r hr
    obtain ⟨output, hout⟩ := exists_getElem?_of_length_eq hlenO hr
    obtain ⟨r', hr', hfacts⟩ := hO j output hout
    obtain rfl : r' = r := Option.some.inj (hr'.symm.trans hr)
    exact ⟨output, hout, hfacts⟩
  -- so the reported totals are the details' totals, which balance
  have hsumO : ∀ fee : Bool, ((outs.filter fun r => policyOf true session.policyAsset r &&
        (isFeeOutput true r == fee)).map satoshiOf).sum =
      ((D.transactionOutputs.filter fun r => policyOf true session.policyAsset r &&
        (isFeeOutput true r == fee)).map satoshiOf).sum := fun fee =>
    sum_filter_map_congr hlenO fun j r output hr hout => by
      obtain ⟨output', hout', hs, ha, hspk, -⟩ := hatO j r hr
      obtain rfl : output' = output := Option.some.inj (hout'.symm.trans hout)
      simp only [policyOf, isFeeOutput, JsonObj.jStrOrEmpty, JsonObj.jStr, satoshiOf, hs,
        ha] at hspk ⊢
      simp only [hspk, and_self]
  have hbal : inputTotal true session.policyAsset ins =
      spendTotal true session.policyAsset outs + feeTotal true session.policyAsset outs := by
    have hin : inputTotal true session.policyAsset ins =
        ((D.transactionInputs.filter (policyOf true session.policyAsset)).map satoshiOf).sum :=
      sum_filter_map_congr hlenI fun i r input hr hin => by
        obtain ⟨input', hin', hs, ha, he, -⟩ := hatI i r hr
        obtain rfl : input' = input := Option.some.inj (hin'.symm.trans hin)
        simp [hasError, policyOf, JsonObj.jStrOrEmpty, JsonObj.jStr, satoshiOf, hs, ha, he]
    have hs := hsumO false
    have hf := hsumO true
    simp only [beq_false, beq_true] at hs hf
    rw [hin, hbalance, spendTotal, feeTotal, spendTotal, feeTotal, hs, hf]
  obtain ⟨R, hR, rfl, rfl⟩ := getDetails_liquid_ok hins houts
    (fun r hr => by
      obtain ⟨i, hi⟩ := List.mem_iff_getElem?.1 hr
      obtain ⟨-, -, -, -, he, hread⟩ := hatI i r hi
      exact ⟨he, hread⟩)
    (fun r hr => by
      obtain ⟨j, hj⟩ := List.mem_iff_getElem?.1 hr
      obtain ⟨-, -, -, -, -, hread⟩ := hatO j r hj
      exact hread) hbal
  have hT : toJson session true pset utxos = .ok (R, decide
      ((R.transactionInputs.filter session.isWalletUtxo).length ≠
        R.transactionInputs.length)) := by
    simp only [toJson, hR, bind, Except.bind]
    rfl
  refine ⟨R, _, hT, hlenI, fun i input hin => ?_, hlenO, fun j output hout => ?_⟩
  · obtain ⟨r, hr, hs, ha, he, -⟩ := hI i input hin
    exact ⟨r, hr, hs, ha, he⟩
  · obtain ⟨r, hr, hs, ha, hspk, -⟩ := hO j output hout
    exact ⟨r, hr, hs, ha, by rw [hspk]⟩

end RoundTrip

/-! ## A run, and an entry beyond the inputs -/

/-- The policy asset of the runs below, as `b2h_rev` shows it. -/
def policyAssetHex : String := "6f0279e9ed041c3d710a9f57d0c02928416460c4b722ae3457a11eec381c526d"

/-- A Liquid session with no part in the transaction, that fetches every previous output. -/
def liquidForeign : Session :=
  { Session.foreign policyAssetHex with fetchUtxo := fun _ _ => some 0 }

/-- Proofs that libwally makes for every request. -/
def acceptingProofs : PsetProofs where
  inputExplicitProofs _ _ _ _ := some ([0x12], [0x14])
  explicitSurjectionproof _ _ _ := some [0x0a]
  explicitRangeproof _ _ _ _ := some [0x09]
  witnessScript script _ := script

/-- A transaction spending one outpoint to a blinded output and an explicit fee. -/
def spendAndFeeTx : Tx where
  inputs := [⟨"aa", 0, 0xffffffff⟩]
  outputs := [⟨[0x51], none, some [0x08], some [0x0a], some [0x01], some [0x02], some [0x03]⟩,
    ⟨[], some 500, none, none, none, none, none⟩]

/-- The details entry of an output or an input of the policy asset. -/
def entryJson (satoshi : Nat) (rest : JsonObj) : JsonObj :=
  [("asset_id", .str policyAssetHex), ("satoshi", .num satoshi), ("assetblinder", .str "00"),
    ("amountblinder", .str "00")] ++ rest

/-- The details of `spendAndFeeTx`: 1500 in, 1000 spent and 500 of fee. -/
def spendAndFee : PsbtDetails where
  error := ""
  transaction := spendAndFeeTx
  transactionInputs := [entryJson 1500 [("txhash", .str "aa"), ("pt_idx", .num 0)]]
  transactionOutputs := [entryJson 1000 [("scriptpubkey", .str "51"), ("blinding_key", .str "02")],
    entryJson 500 [("scriptpubkey", .str "")]]

theorem spendAndFee_scripts :
    List.Forall₂ (fun output (o : TxOutput) => output.jStrOrEmpty "scriptpubkey" = b2h o.script)
      spendAndFee.transactionOutputs spendAndFee.transaction.outputs :=
  .cons (by decide) (.cons (by decide) .nil)

theorem toJson_fromJson_spend_and_fee :
    ∃ pset, fromJson liquidForeign acceptingProofs true spendAndFee = .ok pset ∧
      ∃ R isPartial, toJson liquidForeign true pset (.flat []) = .ok (R, isPartial) ∧
        R.transactionInputs.length = 1 ∧ R.transactionOutputs.length = 2 := by
  have hok : (fromJson liquidForeign acceptingProofs true spendAndFee).toBool = true := by decide
  cases hp : fromJson liquidForeign acceptingProofs true spendAndFee with
  | error e =>
    rw [hp] at hok
    cases hok
  | ok pset =>
    obtain ⟨R, isPartial, hR, hlI, -, hlO, -⟩ :=
      toJson_fromJson hp rfl (by decide) spendAndFee_scripts (by decide) (by decide)
      (fun txin _ => show (Utxos.flat []).take txin.txhash txin.index = .ok none from rfl)
      (fun _ _ => rfl)
    exact ⟨pset, rfl, R, isPartial, hR, hlI, hlO⟩

/-- `spendAndFee` with a second input entry of 1500, and the fee to match: the details
balance, but the transaction still spends one outpoint. -/
def extraInput : PsbtDetails :=
  { spendAndFee with
    transactionInputs := spendAndFee.transactionInputs ++
      [entryJson 1500 [("txhash", .str "bb"), ("pt_idx", .num 0)]]
    transactionOutputs :=
      [entryJson 1000 [("scriptpubkey", .str "51"), ("blinding_key", .str "02")],
      entryJson 2000 [("scriptpubkey", .str "")]] }

theorem extraInput_scripts :
    List.Forall₂ (fun output (o : TxOutput) => output.jStrOrEmpty "scriptpubkey" = b2h o.script)
      extraInput.transactionOutputs extraInput.transaction.outputs :=
  .cons (by decide) (.cons (by decide) .nil)

theorem toJson_fromJson_extra_input :
    ¬ ∀ D : PsbtDetails, (fromJson liquidForeign acceptingProofs true D).toBool = true →
      (∀ o ∈ D.transaction.outputs, o.script ≠ [] → o.IsBlinded) →
      List.Forall₂ (fun output (o : TxOutput) => output.jStrOrEmpty "scriptpubkey" = b2h o.script)
        D.transactionOutputs D.transaction.outputs →
      (∀ entry ∈ D.transactionInputs ++ D.transactionOutputs,
        IsLowerHex (entry.jStrOrEmpty "asset_id")) →
      ((D.transactionInputs.filter (policyOf true policyAssetHex)).map satoshiOf).sum =
        spendTotal true policyAssetHex D.transactionOutputs +
          feeTotal true policyAssetHex D.transactionOutputs →
      ∃ pset R isPartial, fromJson liquidForeign acceptingProofs true D = .ok pset ∧
        toJson liquidForeign true pset (.flat []) = .ok (R, isPartial) := by
  intro h
  obtain ⟨pset, R, isPartial, hpset, hR⟩ :=
    h extraInput (by decide) (by decide) extraInput_scripts (by decide) (by decide)
  have hfail : (fromJson liquidForeign acceptingProofs true extraInput >>= fun pset =>
      toJson liquidForeign true pset (.flat [])) = .error (.assertion "") := rfl
  rw [hpset] at hfail
  change toJson liquidForeign true pset (.flat []) = _ at hfail
  rw [hR] at hfail
  cases hfail


/-! ## One entry per input and per output -/

/-- **One entry per input and per output.** `from_json` fails when the details have fewer
input or output entries than the transaction has inputs or outputs, and reads the same PSET
from the details cut to one entry per input and per output: entries beyond them are never
read. -/
theorem fromJson_entries (session : Session) (proofs : PsetProofs) (isLiquid : Bool)
    (D : PsbtDetails) :
    (D.transactionInputs.length < D.transaction.inputs.length ∨
      D.transactionOutputs.length < D.transaction.outputs.length →
      ∃ e, fromJson session proofs isLiquid D = .error e) ∧
    fromJson session proofs isLiquid
      { D with transactionInputs := D.transactionInputs.take D.transaction.inputs.length,
               transactionOutputs := D.transactionOutputs.take D.transaction.outputs.length } =
      fromJson session proofs isLiquid D := by
  have hin := forEachEntry_take (inputFromJson session proofs isLiquid)
    (psetFromTx D.transaction).inputs D.transactionInputs
  have hout := forEachEntry_take (outputFromJson session proofs isLiquid)
    (psetFromTx D.transaction).outputs D.transactionOutputs
  simp only [psetFromTx, List.length_map] at hin hout
  refine ⟨fun hshort => ?_, ?_⟩
  · cases hr : fromJson session proofs isLiquid D with
    | error e => exact ⟨e, rfl⟩
    | ok pset =>
      obtain ⟨_, -, h⟩ := bind_eq_ok.1 hr
      obtain ⟨ins, hins, h⟩ := bind_eq_ok.1 h
      obtain ⟨outs, houts, -⟩ := bind_eq_ok.1 h
      have h1 := (forEachEntry_eq_ok hins).2.1
      have h2 := (forEachEntry_eq_ok houts).2.1
      simp only [psetFromTx, List.length_map] at h1 h2
      omega
  · simp only [fromJson, psetFromTx] at hin hout ⊢
    rw [hin, hout]

theorem fromJson_entries_no_input_entry :
    ([] : List JsonObj).length < spendAndFee.transaction.inputs.length ∧
      ∃ e, fromJson liquidForeign acceptingProofs true
        { spendAndFee with transactionInputs := [] } = .error e :=
  ⟨by decide, (fromJson_entries liquidForeign acceptingProofs true
    { spendAndFee with transactionInputs := [] }).1 (.inl (by decide))⟩

end Gdk
