/-
# PSBT and PSET data as the PSBT engine reads it

`Psbt` (ga_psbt.cpp) wraps a libwally `wally_psbt`, always upgraded to version 2. The
engine reads, per input, the spent outpoint, the sighash, the explicit amount and the
integer-keyed PSET and PSBT fields, and the amount of the best-known UTXO; per output,
the explicit amount, the script and the PSET fields. Those are the records below; the
keypaths, the signatures and everything else libwally keeps are not read by the modelled
functions and are left out.

The engine's view of `session_impl` is `Session`: the wallet's data for a script, the
unblinding of an output, the derivation paths of a UTXO, and the previous outputs it can
fetch. The JSON readers of `json_utils.hpp` (not under `src/`) are modelled by their names
and uses: a `_ref` reader throws on a missing member or one of the wrong type.
-/
import Gdk.Basic
import Gdk.Json

namespace Gdk

/-- A satoshi amount: `amount::value_type`, a `uint64_t`. -/
abbrev Amount := UInt64

/-! ## Field maps -/

/-- A `wally_map` with integer keys: the PSET or PSBT fields of one input or output. -/
abbrev FieldMap := List (Nat × Bytes)

namespace FieldMap

/-- `get_field(m, k)`: the value under key `k`. -/
def get? : FieldMap → Nat → Option Bytes
  | [], _ => none
  | (k', v) :: m, k => if k' = k then some v else get? m k

/-- A libwally setter: the field under `k` becomes `v`. -/
def set (m : FieldMap) (k : Nat) (v : Bytes) : FieldMap :=
  (k, v) :: m.filter fun e => e.1 ≠ k

@[simp] theorem get?_nil (k : Nat) : get? [] k = none := rfl

@[simp] theorem get?_set_self (m : FieldMap) (k : Nat) (v : Bytes) : (m.set k v).get? k = some v := by
  simp [set, get?]

theorem get?_filter_ne (m : FieldMap) {k k' : Nat} (h : k ≠ k') :
    get? (m.filter fun e => e.1 ≠ k) k' = m.get? k' := by
  induction m with
  | nil => rfl
  | cons e m ih =>
    obtain ⟨j, v⟩ := e
    by_cases hj : j = k
    · subst hj
      rw [List.filter_cons_of_neg (by simp), ih]
      simp [get?, h]
    · rw [List.filter_cons_of_pos (by simpa using hj)]
      simp only [get?, ih]

@[simp] theorem get?_set_ne (m : FieldMap) {k k' : Nat} (h : k ≠ k') (v : Bytes) :
    (m.set k v).get? k' = m.get? k' := by
  rw [set, get?, if_neg h, get?_filter_ne m h]

end FieldMap

/-! ## Field keys

The PSBT keys of BIP-174 and the PSET keys of the Elements PSET specification that the
engine reads or writes. -/

def inRedeemScript : Nat := 0x04
def inWitnessScript : Nat := 0x05
def inValueProof : Nat := 0x12
def inExplicitAsset : Nat := 0x13
def inAssetProof : Nat := 0x14

def outValueCommitment : Nat := 0x01
def outAsset : Nat := 0x02
def outAssetCommitment : Nat := 0x03
def outValueRangeproof : Nat := 0x04
def outAssetSurjectionProof : Nat := 0x05
def outBlindingPubkey : Nat := 0x06
def outEcdhPubkey : Nat := 0x07
def outBlindValueProof : Nat := 0x09
def outBlindAssetProof : Nat := 0x0a

/-! ## Inputs and outputs -/

/-- What the engine reads of a `wally_psbt_input`, and of the matching input of the
extracted transaction. -/
structure PsetInput where
  /-- The spent transaction's id in display order, as `Tx::input_to_json` reports it. -/
  txhash : String
  /-- `index`: the spent output of that transaction. -/
  index : Nat
  sequence : Nat
  sighash : Nat
  hasAmount : Bool
  amount : Amount
  /-- The satoshi of `wally_psbt_get_input_best_utxo`, when the input carries a UTXO. -/
  bestUtxo : Option Amount
  psbtFields : FieldMap
  psetFields : FieldMap
  deriving DecidableEq, Repr

/-- What the engine reads of a `wally_psbt_output`. -/
structure PsetOutput where
  hasAmount : Bool
  amount : Amount
  script : Bytes
  psetFields : FieldMap
  deriving DecidableEq, Repr

/-- `WALLY_PSET_BLINDED_NONE`, `_REQUIRED`, `_FULL` and `_PARTIAL`. -/
inductive BlindingStatus where
  | none
  | required
  | full
  | incomplete
  deriving DecidableEq, Repr

/-- `wally_psbt_get_output_blinding_status` (libwally, not under `src/`): an output needs
blinding when it carries a blinding pubkey, and is blinded once it also carries both
commitments, the value rangeproof, the surjection proof and the ECDH key. -/
def PsetOutput.blindingStatus (o : PsetOutput) : BlindingStatus :=
  let blinded := [outValueCommitment, outAssetCommitment, outValueRangeproof,
    outAssetSurjectionProof, outEcdhPubkey]
  if (o.psetFields.get? outBlindingPubkey).isNone then .none
  else if blinded.all fun k => (o.psetFields.get? k).isSome then .full
  else if blinded.any fun k => (o.psetFields.get? k).isSome then .incomplete
  else .required

/-- The PSBT's inputs and outputs. -/
structure Pset where
  inputs : List PsetInput
  outputs : List PsetOutput
  deriving DecidableEq, Repr

/-- `Tx::input_to_json(i)` (ga_tx.cpp, not under `src/`). Modelled from the spec: the
previous txid, the spent output and the sequence. -/
def PsetInput.toJson (i : PsetInput) : JsonObj :=
  [("txhash", .str i.txhash), ("pt_idx", .num i.index), ("sequence", .num i.sequence)]

/-! ## The session -/

/-- What the engine asks of `session_impl` and of the unblinding and path helpers. -/
structure Session where
  policyAsset : String
  isElectrum : Bool
  /-- `get_scriptpubkey_data(script)`: the wallet's data for a script it owns, empty for
  any other script. -/
  scriptpubkeyData : Bytes → JsonObj
  /-- `unblind_output(session, tx, i)`: the unblinded data of output `i`, with an `error`
  member when unblinding fails. -/
  unblindOutput : Nat → JsonObj
  /-- `utxo_add_paths(session, utxo)`. -/
  addPaths : JsonObj → JsonObj
  /-- The satoshi of output `vout` of the transaction `get_raw_transaction_details`
  fetches, when it has one. -/
  fetchUtxo : String → Nat → Option Amount
  /-- `is_wallet_utxo(utxo)` (not under `src/`). -/
  isWalletUtxo : JsonObj → Bool
  /-- The public keys of `keys_from_utxo(utxo)`: the Green key first on multisig, then the
  user's. -/
  keysFromUtxo : JsonObj → List Bytes

/-- A session that owns no script, unblinds nothing and fetches nothing: the engine run on
a PSBT that carries its own UTXOs, for a wallet with no part in it. -/
def Session.foreign (policyAsset : String) : Session where
  policyAsset := policyAsset
  isElectrum := false
  scriptpubkeyData _ := []
  unblindOutput _ := []
  addPaths := id
  fetchUtxo _ _ := none
  isWalletUtxo _ := false
  keysFromUtxo _ := []

/-! ## JSON readers -/

/-- `j_strref(j, key)`. -/
def strRef (o : JsonObj) (key : String) : Except Failure String :=
  match o.find? key with
  | some (.str s) => pure s
  | _ => throw .exception

/-- `j_uint32ref(j, key)`. -/
def uint32Ref (o : JsonObj) (key : String) : Except Failure Nat :=
  match o.find? key with
  | some (.num n) => if 0 ≤ n ∧ n < 2 ^ 32 then pure n.toNat else throw .exception
  | _ => throw .exception

/-- `j_amountref(j)`: the `satoshi` member as an amount. -/
def amountRef (o : JsonObj) : Except Failure Amount :=
  match o.find? "satoshi" with
  | some (.num n) => if 0 ≤ n ∧ n < 2 ^ 64 then pure (UInt64.ofNat n.toNat) else throw .exception
  | _ => throw .exception

/-- `j_assetref(is_liquid, j)`: the `asset_id` member on Liquid, the bitcoin asset
otherwise. -/
def assetRef (isLiquid : Bool) (o : JsonObj) : Except Failure String :=
  if isLiquid then strRef o "asset_id" else pure "btc"

/-- `j_bool_or_false(j, key)`. -/
def boolOrFalse (o : JsonObj) (key : String) : Bool :=
  match o.find? key with
  | some (.bool b) => b
  | _ => false

/-- The JSON number of an amount. -/
def amountJson (a : Amount) : Json :=
  .num a.toNat

/-- `set_pset_field(src, dst, key, k, do_reverse)`: copy field `k` into `dst[key]` as hex,
byte-reversed when asked; a missing field is a user error naming the key. -/
def setPsetField (fields : FieldMap) (dst : JsonObj) (key : String) (k : Nat)
    (doReverse : Bool) : Except Failure JsonObj :=
  match fields.get? k with
  | some v => pure (dst.set key (.str (if doReverse then b2hRev v else b2h v)))
  | none => throw (.userError (key ++ " not found"))

theorem setPsetField_eq_ok {fields : FieldMap} {dst dst' : JsonObj} {key : String} {k : Nat}
    {doReverse : Bool} (h : setPsetField fields dst key k doReverse = .ok dst') :
    ∃ v, fields.get? k = some v ∧
      dst' = dst.set key (.str (if doReverse then b2hRev v else b2h v)) := by
  unfold setPsetField at h
  split at h
  next v hv =>
    cases h
    exact ⟨v, hv, rfl⟩
  next => cases h

/-- Copying a field leaves every other member as it was. -/
theorem setPsetField_find?_ne {fields : FieldMap} {dst dst' : JsonObj} {key k' : String}
    {k : Nat} {doReverse : Bool} (h : setPsetField fields dst key k doReverse = .ok dst')
    (hk : key ≠ k') : dst'.find? k' = dst.find? k' := by
  obtain ⟨v, -, rfl⟩ := setPsetField_eq_ok h
  exact JsonObj.find?_set_ne dst hk _

/-- A missing field is reported under its JSON key. -/
theorem setPsetField_not_found {fields : FieldMap} (dst : JsonObj) (key : String) {k : Nat}
    (h : fields.get? k = none) (doReverse : Bool) :
    setPsetField fields dst key k doReverse = .error (.userError (key ++ " not found")) := by
  rw [setPsetField, h]
  rfl

end Gdk
