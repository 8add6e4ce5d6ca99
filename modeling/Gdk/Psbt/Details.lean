/-
# The details of a PSBT and its fee

`Psbt::get_details` (ga_psbt.cpp 251–308) reports the inputs and outputs of a PSBT and
its fee. It adds the satoshi of every policy-asset input without an error into `sum`,
subtracts every policy-asset output but the Liquid fee outputs (empty script), which it
adds into `explicit_fee` instead, and on Liquid asserts `sum == explicit_fee` unless an
input had an error. `sum` and `explicit_fee` are `amount`s, whose value is a `uint64_t`,
so both accumulations are taken modulo 2^64: policy-asset inputs whose total overflows can
pass the Liquid balance assertion, and outputs that exceed the inputs leave a wrapped
Bitcoin fee in `sum`.

`Details` keeps the members of the result that the modelled code computes: the inputs,
the outputs, the fee and the error. The transaction hex, the txid, `network_fee`,
`is_blinded` and `utxo_strategy` are left out. So is `update_tx_info` (not under `src/`),
which computes `calculated_fee_rate` from the fee, and with it the `fee_rate` member
(ga_psbt.cpp 300), which `j_uint32ref` reads back from it and which throws for a rate of
2^32 or more: the model returns a result wherever `get_details` reaches `update_tx_info`.

Main results:

* `getDetails_fee`: the fee and the Liquid balance, modulo 2^64;
* `getDetails_wraps_liquid_balance`: two Liquid inputs of 2^63 satoshi pass the balance
  assertion against a fee of 0;
* `getDetails_counts_utxo_twice`: two inputs spending one wallet outpoint both count its
  UTXO;
* `getDetails_error_iff`: the result carries `error` exactly when a reported input has one
  and is not marked `skip_signing`, which only a wallet input can be;
* `getDetails_error_text`: its text is that of the last input with an error, which may be
  one marked `skip_signing`.
-/
import Gdk.Psbt.Outputs

namespace Gdk

/-! ## get_details -/

/-- `!m_is_liquid || j_assetref(m_is_liquid, j) == policy_asset`. -/
def isPolicyAsset (isLiquid : Bool) (policyAsset : String) (j : JsonObj) : Except Failure Bool :=
  if isLiquid then do pure ((← assetRef true j) = policyAsset) else pure true

/-- The running state of the input loop of `get_details`: `sum`, `error` and `use_error`. -/
structure InputTotals where
  sum : Amount
  error : String
  useError : Bool

/-- One step of the input loop (ga_psbt.cpp 263–279). -/
def addInputTotals (isLiquid : Bool) (policyAsset : String) (acc : InputTotals) (input : JsonObj) :
    Except Failure InputTotals := do
  let txinError := input.jStrOrEmpty "error"
  if txinError ≠ "" then
    pure { acc with error := txinError, useError := acc.useError || !boolOrFalse input "skip_signing" }
  else if ← isPolicyAsset isLiquid policyAsset input then
    pure { acc with sum := acc.sum + (← amountRef input) }
  else pure acc

/-- One step of the output loop (ga_psbt.cpp 280–288): `sum` and `explicit_fee`. -/
def addOutputTotals (isLiquid : Bool) (policyAsset : String) (acc : Amount × Amount)
    (txout : JsonObj) : Except Failure (Amount × Amount) := do
  if ← isPolicyAsset isLiquid policyAsset txout then
    if isLiquid ∧ txout.jStrOrEmpty "scriptpubkey" = "" then
      pure (acc.1, acc.2 + (← amountRef txout))
    else pure (acc.1 - (← amountRef txout), acc.2)
  else pure acc

/-- The members of `get_details`' result that the modelled code computes. -/
structure Details where
  transactionInputs : List JsonObj
  transactionOutputs : List JsonObj
  fee : Amount
  error : Option String

/-- `Psbt::get_details(session, { "utxos": utxos })` up to its call of `update_tx_info`
(ga_psbt.cpp 251–294); the `fee_rate` read after that call is left out. -/
def getDetails (session : Session) (isLiquid : Bool) (pset : Pset) (utxos : Utxos) :
    Except Failure Details := do
  let (inputs, walletAssets) ← inputsToJson session isLiquid utxos pset.inputs
  let outputs ← outputsToJson session isLiquid walletAssets pset.outputs
  let acc ← inputs.foldlM (addInputTotals isLiquid session.policyAsset) ⟨0, "", false⟩
  let (sum, explicitFee) ← outputs.foldlM (addOutputTotals isLiquid session.policyAsset) (acc.sum, 0)
  -- Calculated fee must match fee output for Liquid unless an error occurred
  runtimeAssert (!isLiquid || sum == explicitFee || acc.error ≠ "") ""
  pure {
    transactionInputs := inputs
    transactionOutputs := outputs
    fee := if isLiquid then explicitFee else sum
    error := if acc.useError then some acc.error else none }

/-- What a successful `get_details` computed: the inputs' and the outputs' JSON, the two
loops, the assertion that passed, and the result built from them. -/
theorem getDetails_eq_ok {session : Session} {isLiquid : Bool} {pset : Pset} {utxos : Utxos}
    {R : Details} (h : getDetails session isLiquid pset utxos = .ok R) :
    ∃ assets acc totals,
      inputsToJson session isLiquid utxos pset.inputs = .ok (R.transactionInputs, assets) ∧
      outputsToJson session isLiquid assets pset.outputs = .ok R.transactionOutputs ∧
      R.transactionInputs.foldlM (addInputTotals isLiquid session.policyAsset)
        ⟨0, "", false⟩ = .ok acc ∧
      R.transactionOutputs.foldlM (addOutputTotals isLiquid session.policyAsset)
        (acc.sum, 0) = .ok totals ∧
      (!isLiquid || totals.1 == totals.2 || acc.error ≠ "") = true ∧
      R.fee = (if isLiquid then totals.2 else totals.1) ∧
      R.error = if acc.useError then some acc.error else none := by
  obtain ⟨⟨ins, assets⟩, hin, h⟩ := bind_eq_ok.1 h
  obtain ⟨outs, hout, h⟩ := bind_eq_ok.1 h
  obtain ⟨acc, hacc, h⟩ := bind_eq_ok.1 h
  obtain ⟨⟨sum, fee⟩, htot, h⟩ := bind_eq_ok.1 h
  obtain ⟨_, hassert, h⟩ := bind_eq_ok.1 h
  cases h
  exact ⟨assets, acc, (sum, fee), hin, hout, hacc, htot, runtimeAssert_eq_ok hassert, rfl, rfl⟩

/-! ## The sums, as integers -/

/-- The `satoshi` of a reported input or output. -/
def satoshiOf (j : JsonObj) : Nat :=
  match j.find? "satoshi" with
  | some (.num n) => n.toNat
  | _ => 0

/-- Whether a reported input or output is of the policy asset; on Bitcoin every one is. -/
def policyOf (isLiquid : Bool) (policyAsset : String) (j : JsonObj) : Bool :=
  !isLiquid || j.jStrOrEmpty "asset_id" = policyAsset

/-- Whether a reported input carries an error. -/
def hasError (j : JsonObj) : Bool :=
  j.jStrOrEmpty "error" ≠ ""

/-- Whether a reported output is a Liquid fee output: one with an empty script. -/
def isFeeOutput (isLiquid : Bool) (j : JsonObj) : Bool :=
  isLiquid && j.jStrOrEmpty "scriptpubkey" = ""

/-- The satoshi of the policy-asset inputs without an error. -/
def inputTotal (isLiquid : Bool) (policyAsset : String) (inputs : List JsonObj) : Nat :=
  ((inputs.filter fun j => !hasError j && policyOf isLiquid policyAsset j).map satoshiOf).sum

/-- The satoshi of the policy-asset fee outputs. -/
def feeTotal (isLiquid : Bool) (policyAsset : String) (outputs : List JsonObj) : Nat :=
  ((outputs.filter fun j => policyOf isLiquid policyAsset j && isFeeOutput isLiquid j).map
    satoshiOf).sum

/-- The satoshi of the policy-asset outputs that are not fee outputs. -/
def spendTotal (isLiquid : Bool) (policyAsset : String) (outputs : List JsonObj) : Nat :=
  ((outputs.filter fun j => policyOf isLiquid policyAsset j && !isFeeOutput isLiquid j).map
    satoshiOf).sum

theorem inputTotal_cons (isLiquid : Bool) (policyAsset : String) (j : JsonObj) (js : List JsonObj) :
    inputTotal isLiquid policyAsset (j :: js) =
      (if !hasError j && policyOf isLiquid policyAsset j then satoshiOf j else 0) +
        inputTotal isLiquid policyAsset js := by
  unfold inputTotal
  rw [List.filter_cons]
  split <;> simp [*]

theorem feeTotal_cons (isLiquid : Bool) (policyAsset : String) (j : JsonObj) (js : List JsonObj) :
    feeTotal isLiquid policyAsset (j :: js) =
      (if policyOf isLiquid policyAsset j && isFeeOutput isLiquid j then satoshiOf j else 0) +
        feeTotal isLiquid policyAsset js := by
  unfold feeTotal
  rw [List.filter_cons]
  split <;> simp [*]

theorem spendTotal_cons (isLiquid : Bool) (policyAsset : String) (j : JsonObj) (js : List JsonObj) :
    spendTotal isLiquid policyAsset (j :: js) =
      (if policyOf isLiquid policyAsset j && !isFeeOutput isLiquid j then satoshiOf j else 0) +
        spendTotal isLiquid policyAsset js := by
  unfold spendTotal
  rw [List.filter_cons]
  split <;> simp [*]

/-! ## The accumulations -/

theorem amount_add_toNat (a b : Amount) : (a + b).toNat = (a.toNat + b.toNat) % UInt64.size :=
  rfl

theorem amount_sub_toNat (a b : Amount) :
    (a - b).toNat = (UInt64.size - b.toNat + a.toNat) % UInt64.size :=
  BitVec.toNat_sub _ _

theorem amountRef_eq_ok {j : JsonObj} {a : Amount} (h : amountRef j = .ok a) :
    a.toNat = satoshiOf j := by
  unfold amountRef at h
  split at h
  next n hn =>
    split_ifs at h with hr
    cases h
    rw [satoshiOf, hn, UInt64.toNat_ofNat_of_lt (by unfold UInt64.size; omega)]
  next => cases h

theorem strRef_eq_ok {o : JsonObj} {key s : String} (h : strRef o key = .ok s) :
    o.jStrOrEmpty key = s := by
  unfold strRef at h
  split at h
  next s' hs =>
    cases h
    simp [JsonObj.jStrOrEmpty, JsonObj.jStr, hs]
  next => cases h

theorem isPolicyAsset_eq_ok {isLiquid : Bool} {policyAsset : String} {j : JsonObj} {b : Bool}
    (h : isPolicyAsset isLiquid policyAsset j = .ok b) : b = policyOf isLiquid policyAsset j := by
  cases isLiquid
  · cases h
    rfl
  · simp only [isPolicyAsset, if_true, assetRef, bind, Except.bind] at h
    split at h
    · cases h
    next s hs =>
      cases h
      simp [policyOf, strRef_eq_ok hs]

/-- One input: its satoshi is added when it has no error and is of the policy asset. -/
theorem addInputTotals_eq_ok {isLiquid : Bool} {policyAsset : String} {acc acc' : InputTotals}
    {input : JsonObj} (h : addInputTotals isLiquid policyAsset acc input = .ok acc') :
    acc'.sum.toNat = (acc.sum.toNat +
      if !hasError input && policyOf isLiquid policyAsset input then satoshiOf input else 0) %
        UInt64.size ∧
    (hasError input = false → acc'.error = acc.error) := by
  have hlt := acc.sum.toNat_lt_size
  unfold addInputTotals at h
  by_cases he : input.jStrOrEmpty "error" = ""
  · have hne : hasError input = false := by simp [hasError, he]
    simp only [he, ne_eq, not_true_eq_false, if_false, bind, Except.bind] at h
    split at h
    · cases h
    next b hb =>
      rw [← isPolicyAsset_eq_ok hb]
      cases b
      · cases h
        simp [hne, Nat.mod_eq_of_lt hlt]
      · simp only [if_true] at h
        split at h
        · cases h
        next a ha =>
          cases h
          simp [hne, amount_add_toNat, amountRef_eq_ok ha]
  · simp only [he, ne_eq, not_false_eq_true, if_true] at h
    cases h
    simp [hasError, he, Nat.mod_eq_of_lt hlt]

/-- **The input loop.** `sum` gains the policy-asset inputs without an error, modulo
2^64, and `error` is kept when no input has one. -/
theorem foldlM_addInputTotals {isLiquid : Bool} {policyAsset : String} {inputs : List JsonObj}
    {acc acc' : InputTotals} (h : inputs.foldlM (addInputTotals isLiquid policyAsset) acc = .ok acc') :
    acc'.sum.toNat = (acc.sum.toNat + inputTotal isLiquid policyAsset inputs) % UInt64.size ∧
    ((∀ j ∈ inputs, hasError j = false) → acc'.error = acc.error) := by
  induction inputs generalizing acc with
  | nil =>
    cases h
    simp [inputTotal, Nat.mod_eq_of_lt (UInt64.toNat_lt_size _)]
  | cons input inputs ih =>
    simp only [List.foldlM_cons, bind, Except.bind] at h
    split at h
    · cases h
    next acc1 h1 =>
      obtain ⟨hs1, he1⟩ := addInputTotals_eq_ok h1
      obtain ⟨hs, he⟩ := ih h
      refine ⟨?_, fun hall => (he fun j hj => hall j (List.mem_cons_of_mem _ hj)).trans
        (he1 (hall input (List.mem_cons_self _ _)))⟩
      rw [hs, hs1, inputTotal_cons]
      unfold UInt64.size
      omega

/-- One output: a fee output's satoshi is added to `explicit_fee`, any other policy-asset
output's is taken from `sum`. -/
theorem addOutputTotals_eq_ok {isLiquid : Bool} {policyAsset : String} {acc acc' : Amount × Amount}
    {txout : JsonObj} (h : addOutputTotals isLiquid policyAsset acc txout = .ok acc') :
    (acc'.1.toNat +
      (if policyOf isLiquid policyAsset txout && !isFeeOutput isLiquid txout then satoshiOf txout else 0)) %
        UInt64.size = acc.1.toNat ∧
    acc'.2.toNat = (acc.2.toNat +
      if policyOf isLiquid policyAsset txout && isFeeOutput isLiquid txout then satoshiOf txout else 0) %
        UInt64.size := by
  have h1 := acc.1.toNat_lt_size
  have h2 := acc.2.toNat_lt_size
  unfold addOutputTotals at h
  simp only [bind, Except.bind] at h
  split at h
  · cases h
  next b hb =>
    rw [← isPolicyAsset_eq_ok hb]
    cases b
    · cases h
      simp [Nat.mod_eq_of_lt h1, Nat.mod_eq_of_lt h2]
    · simp only [if_true] at h
      by_cases hf : isFeeOutput isLiquid txout = true
      · rw [if_pos (by simpa [isFeeOutput] using hf)] at h
        split at h
        · cases h
        next a ha =>
          cases h
          simp [hf, amount_add_toNat, amountRef_eq_ok ha, Nat.mod_eq_of_lt h1]
      · rw [if_neg (by simpa [isFeeOutput] using hf)] at h
        split at h
        · cases h
        next a ha =>
          cases h
          have ha' := a.toNat_lt_size
          rw [amountRef_eq_ok ha] at ha'
          simp only [hf, amount_sub_toNat, amountRef_eq_ok ha, Nat.mod_eq_of_lt h2]
          simp only [Bool.not_false, Bool.and_self, if_true, Bool.and_false, Bool.false_eq_true,
            if_false, Nat.add_zero, and_true]
          unfold UInt64.size at *
          omega

/-- **The output loop.** `explicit_fee` gains the policy-asset fee outputs and `sum`
loses every other policy-asset output, modulo 2^64. -/
theorem foldlM_addOutputTotals {isLiquid : Bool} {policyAsset : String} {outputs : List JsonObj}
    {acc acc' : Amount × Amount}
    (h : outputs.foldlM (addOutputTotals isLiquid policyAsset) acc = .ok acc') :
    (acc'.1.toNat + spendTotal isLiquid policyAsset outputs) % UInt64.size = acc.1.toNat ∧
    acc'.2.toNat = (acc.2.toNat + feeTotal isLiquid policyAsset outputs) % UInt64.size := by
  induction outputs generalizing acc with
  | nil =>
    cases h
    simp [spendTotal, feeTotal, Nat.mod_eq_of_lt (UInt64.toNat_lt_size _)]
  | cons txout outputs ih =>
    simp only [List.foldlM_cons, bind, Except.bind] at h
    split at h
    · cases h
    next acc1 h1 =>
      obtain ⟨hs1, hf1⟩ := addOutputTotals_eq_ok h1
      obtain ⟨hs, hf⟩ := ih h
      rw [spendTotal_cons, feeTotal_cons, hf, hf1]
      refine ⟨?_, by unfold UInt64.size; omega⟩
      rw [← hs1, ← hs]
      unfold UInt64.size
      omega


/-! ## When get_details succeeds -/

/-- A reported input or output the totals can read: a string `asset_id` and a `satoshi`
in range. -/
def Readable (j : JsonObj) : Prop :=
  (∃ s, j.find? "asset_id" = some (.str s)) ∧ ∃ a, amountRef j = .ok a

theorem isPolicyAsset_liquid {policyAsset : String} {j : JsonObj} {s : String}
    (hs : j.find? "asset_id" = some (.str s)) :
    isPolicyAsset true policyAsset j = .ok (s = policyAsset) := by
  simp only [isPolicyAsset, if_true, assetRef, strRef, hs]
  rfl

theorem foldlM_addInputTotals_ok (policyAsset : String) {inputs : List JsonObj}
    (h : ∀ j ∈ inputs, j.find? "error" = none ∧ Readable j) (acc : InputTotals) :
    ∃ acc', inputs.foldlM (addInputTotals true policyAsset) acc = .ok acc' := by
  induction inputs generalizing acc with
  | nil => exact ⟨acc, rfl⟩
  | cons j js ih =>
    obtain ⟨he, ⟨s, hs⟩, a, ha⟩ := h j (List.mem_cons_self _ _)
    have hstep : ∃ acc1, addInputTotals true policyAsset acc j = .ok acc1 := by
      by_cases hp : s = policyAsset <;>
        simp [addInputTotals, JsonObj.jStrOrEmpty, JsonObj.jStr, he, isPolicyAsset_liquid hs, hp,
          ha, bind, Except.bind]
    obtain ⟨acc1, h1⟩ := hstep
    obtain ⟨acc', h'⟩ := ih (fun j hj => h j (List.mem_cons_of_mem _ hj)) acc1
    exact ⟨acc', by simp [List.foldlM_cons, h1, h', bind, Except.bind]⟩

theorem foldlM_addOutputTotals_ok (policyAsset : String) {outputs : List JsonObj}
    (h : ∀ j ∈ outputs, Readable j) (acc : Amount × Amount) :
    ∃ acc', outputs.foldlM (addOutputTotals true policyAsset) acc = .ok acc' := by
  induction outputs generalizing acc with
  | nil => exact ⟨acc, rfl⟩
  | cons j js ih =>
    obtain ⟨⟨s, hs⟩, a, ha⟩ := h j (List.mem_cons_self _ _)
    have hstep : ∃ acc1, addOutputTotals true policyAsset acc j = .ok acc1 := by
      by_cases hp : s = policyAsset <;> by_cases hf : j.jStrOrEmpty "scriptpubkey" = "" <;>
        simp [addOutputTotals, isPolicyAsset_liquid hs, hp, hf, ha, bind, Except.bind]
    obtain ⟨acc1, h1⟩ := hstep
    obtain ⟨acc', h'⟩ := ih (fun j hj => h j (List.mem_cons_of_mem _ hj)) acc1
    exact ⟨acc', by simp [List.foldlM_cons, h1, h', bind, Except.bind]⟩

/-- **`get_details` succeeds on Liquid** when the inputs and outputs are reported, every
reported one can be totalled, no input has an error, and the policy asset balances. -/
theorem getDetails_liquid_ok {session : Session} {pset : Pset} {utxos : Utxos}
    {ins outs : List JsonObj} {assets : List String}
    (hin : inputsToJson session true utxos pset.inputs = .ok (ins, assets))
    (hout : outputsToJson session true assets pset.outputs = .ok outs)
    (hins : ∀ j ∈ ins, j.find? "error" = none ∧ Readable j)
    (houts : ∀ j ∈ outs, Readable j)
    (hbal : inputTotal true session.policyAsset ins =
      spendTotal true session.policyAsset outs + feeTotal true session.policyAsset outs) :
    ∃ R, getDetails session true pset utxos = .ok R ∧
      R.transactionInputs = ins ∧ R.transactionOutputs = outs := by
  obtain ⟨acc, hacc⟩ := foldlM_addInputTotals_ok session.policyAsset hins ⟨0, "", false⟩
  obtain ⟨tot, htot⟩ := foldlM_addOutputTotals_ok session.policyAsset houts (acc.sum, 0)
  obtain ⟨hsum, -⟩ := foldlM_addInputTotals hacc
  obtain ⟨hspend, hfee⟩ := foldlM_addOutputTotals htot
  have hbalanced : tot.1 = tot.2 := by
    apply UInt64.toNat.inj
    have h1 := tot.1.toNat_lt_size
    simp only [UInt64.toNat_zero, Nat.zero_add] at hsum hfee
    rw [hsum, hbal] at hspend
    rw [hfee]
    unfold UInt64.size at *
    omega
  refine ⟨⟨ins, outs, tot.2, if acc.useError then some acc.error else none⟩, ?_, rfl, rfl⟩
  simp only [getDetails, hin, hout, hacc, htot, hbalanced, beq_self_eq_true, Bool.true_or,
    runtimeAssert_true, bind, Except.bind]
  rfl

/-! ## The fee -/

/-- One input: an input with an error makes its text `error`, and raises `use_error` unless
it is marked `skip_signing`; an input without one changes neither. -/
theorem addInputTotals_error {isLiquid : Bool} {policyAsset : String} {acc acc' : InputTotals}
    {input : JsonObj} (h : addInputTotals isLiquid policyAsset acc input = .ok acc') :
    acc'.error = (if hasError input then input.jStrOrEmpty "error" else acc.error) ∧
    acc'.useError = (acc.useError || (hasError input && !boolOrFalse input "skip_signing")) := by
  unfold addInputTotals at h
  by_cases he : input.jStrOrEmpty "error" = ""
  · have hne : hasError input = false := by simp [hasError, he]
    simp only [he, ne_eq, not_true_eq_false, if_false] at h
    rw [hne, if_neg Bool.false_ne_true, Bool.false_and, Bool.or_false]
    obtain ⟨b, -, h⟩ := bind_eq_ok.1 h
    split at h
    · obtain ⟨a, -, h⟩ := bind_eq_ok.1 h
      cases h
      exact ⟨rfl, rfl⟩
    · cases h
      exact ⟨rfl, rfl⟩
  · simp only [he, ne_eq, not_false_eq_true, if_true] at h
    cases h
    simp [hasError, he]

/-- **The input loop's `use_error`**: raised exactly when it already was, or when some input
has an error and is not marked `skip_signing`. -/
theorem foldlM_addInputTotals_useError {isLiquid : Bool} {policyAsset : String}
    {inputs : List JsonObj} {acc acc' : InputTotals}
    (h : inputs.foldlM (addInputTotals isLiquid policyAsset) acc = .ok acc') :
    acc'.useError = true ↔ acc.useError = true ∨
      ∃ j ∈ inputs, hasError j = true ∧ boolOrFalse j "skip_signing" = false := by
  induction inputs generalizing acc with
  | nil =>
    cases h
    simp only [List.not_mem_nil, false_and, exists_false, or_false]
  | cons input inputs ih =>
    rw [List.foldlM_cons] at h
    obtain ⟨acc1, h1, h⟩ := bind_eq_ok.1 h
    rw [ih h, (addInputTotals_error h1).2]
    simp only [List.mem_cons, or_and_right, exists_or, exists_eq_left, Bool.or_eq_true,
      Bool.and_eq_true, Bool.not_eq_true', or_assoc]

/-- **The input loop's `error`**: the text of the last input with an error, or what it was
when no input has one. -/
theorem foldlM_addInputTotals_error {isLiquid : Bool} {policyAsset : String}
    {inputs : List JsonObj} {acc acc' : InputTotals}
    (h : inputs.foldlM (addInputTotals isLiquid policyAsset) acc = .ok acc') :
    (acc'.error = acc.error ∧ ∀ j ∈ inputs, hasError j = false) ∨
    ∃ pre j post, inputs = pre ++ j :: post ∧ hasError j = true ∧
      acc'.error = j.jStrOrEmpty "error" ∧ ∀ k ∈ post, hasError k = false := by
  induction inputs generalizing acc with
  | nil =>
    cases h
    exact .inl ⟨rfl, fun _ h => nomatch h⟩
  | cons input inputs ih =>
    rw [List.foldlM_cons] at h
    obtain ⟨acc1, h1, h⟩ := bind_eq_ok.1 h
    have he1 := (addInputTotals_error h1).1
    rcases ih h with ⟨he, hnone⟩ | ⟨pre, j, post, rfl, hj, he, hpost⟩
    · cases hi : hasError input
      · rw [hi, if_neg Bool.false_ne_true] at he1
        exact .inl ⟨he.trans he1, List.forall_mem_cons.2 ⟨hi, hnone⟩⟩
      · rw [hi, if_pos rfl] at he1
        exact .inr ⟨[], input, inputs, rfl, hi, he.trans he1, hnone⟩
    · exact .inr ⟨input :: pre, j, post, rfl, hj, he, hpost⟩

/-- **The top-level error.** A successful `get_details` reports `error` exactly when some
reported input has a non-empty error and is not marked `skip_signing`. Every input that
matches no wallet UTXO is marked `skip_signing`, so the inputs that can raise it are the
wallet inputs: an input outside the wallet that fails to unblind never does, and a wallet
input with an error that is not skipped always does. -/
theorem getDetails_error_iff {session : Session} {isLiquid : Bool} {pset : Pset}
    {utxos : Utxos} {R : Details} (h : getDetails session isLiquid pset utxos = .ok R) :
    (R.error.isSome ↔
      ∃ j ∈ R.transactionInputs, hasError j = true ∧ boolOrFalse j "skip_signing" = false) ∧
    (∀ (i : Nat) (input : PsetInput) (j : JsonObj), pset.inputs[i]? = some input →
      R.transactionInputs[i]? = some j → utxos.take input.txhash input.index = .ok none →
        boolOrFalse j "skip_signing" = true) ∧
    (R.error.isSome ↔ ∃ (i : Nat) (input : PsetInput) (u j : JsonObj),
      pset.inputs[i]? = some input ∧ utxos.take input.txhash input.index = .ok (some u) ∧
        R.transactionInputs[i]? = some j ∧ hasError j = true ∧
        boolOrFalse j "skip_signing" = false) := by
  obtain ⟨assets, acc, -, hin, -, hacc, -, -, -, herr⟩ := getDetails_eq_ok h
  have hflag : R.error.isSome ↔ ∃ j ∈ R.transactionInputs,
      hasError j = true ∧ boolOrFalse j "skip_signing" = false := by
    have huse := foldlM_addInputTotals_useError hacc
    simp only [Bool.false_eq_true, false_or] at huse
    rw [herr, ← huse]
    cases acc.useError <;> simp
  refine ⟨hflag, fun _ _ _ => inputsToJson_non_wallet hin, hflag.trans ⟨?_, ?_⟩⟩
  · -- an input that raises the error took a wallet UTXO, since a non-wallet one is skipped
    rintro ⟨j, hj, herror, hno⟩
    obtain ⟨i, hi⟩ := List.mem_iff_getElem?.1 hj
    obtain ⟨hlen, hall⟩ := inputsToJson_eq_ok hin
    obtain ⟨input, hinput⟩ := exists_getElem?_of_length_eq hlen hi
    obtain ⟨taken, -, htake, -, -⟩ := hall i input hinput
    cases taken with
    | none =>
      rw [inputsToJson_non_wallet hin hinput hi htake] at hno
      cases hno
    | some u => exact ⟨i, input, u, j, hinput, htake, hi, herror, hno⟩
  · rintro ⟨i, -, -, j, -, -, hj, herror, hno⟩
    exact ⟨j, List.mem_iff_getElem?.2 ⟨i, hj⟩, herror, hno⟩

/-- A Liquid PSET whose one input is outside the wallet and carries no explicit amount, and
whose one output is a fee of the policy asset. -/
def unblindFailurePset : Pset :=
  ⟨[⟨"aa", 0, 0, 0, false, 0, some 1000, [], []⟩],
    [⟨true, 1000, [], [(outAsset, [0xab])]⟩]⟩

theorem getDetails_error_iff_unblind_failure :
    ∃ R, getDetails (.foreign "ab") true unblindFailurePset (.flat []) = .ok R ∧
      R.error = none ∧
      R.transactionInputs.map (·.jStrOrEmpty "error") = ["failed to unblind utxo"] ∧
      (R.error.isSome ↔ ∃ j ∈ R.transactionInputs,
        hasError j = true ∧ boolOrFalse j "skip_signing" = false) ∧
      (∀ (i : Nat) (input : PsetInput) (j : JsonObj),
        unblindFailurePset.inputs[i]? = some input → R.transactionInputs[i]? = some j →
          (Utxos.flat []).take input.txhash input.index = .ok none →
            boolOrFalse j "skip_signing" = true) ∧
      (R.error.isSome ↔ ∃ (i : Nat) (input : PsetInput) (u j : JsonObj),
        unblindFailurePset.inputs[i]? = some input ∧
          (Utxos.flat []).take input.txhash input.index = .ok (some u) ∧
          R.transactionInputs[i]? = some j ∧ hasError j = true ∧
          boolOrFalse j "skip_signing" = false) :=
  have h : getDetails (.foreign "ab") true unblindFailurePset (.flat []) =
      .ok ⟨[[("txhash", .str "aa"), ("pt_idx", .num 0), ("sequence", .num 0),
          ("skip_signing", .bool true), ("error", .str "failed to unblind utxo")]],
        [[("asset_id", .str "ab"), ("satoshi", .num 1000), ("scriptpubkey", .str "")]], 1000,
        none⟩ := rfl
  ⟨_, h, rfl, rfl, getDetails_error_iff h⟩

/-- **The text of the top-level error** is that of the last reported input with an error.
That input may be marked `skip_signing`: the input that raises `use_error` and the one whose
text is reported can differ. -/
theorem getDetails_error_text {session : Session} {isLiquid : Bool} {pset : Pset}
    {utxos : Utxos} {R : Details} (h : getDetails session isLiquid pset utxos = .ok R)
    {e : String} (he : R.error = some e) :
    ∃ pre j post, R.transactionInputs = pre ++ j :: post ∧ hasError j = true ∧
      e = j.jStrOrEmpty "error" ∧ ∀ k ∈ post, hasError k = false := by
  obtain ⟨-, acc, -, -, -, hacc, -, -, -, herr⟩ := getDetails_eq_ok h
  rw [herr] at he
  split at he
  next huse =>
    cases he
    rcases foldlM_addInputTotals_error hacc with ⟨-, hnone⟩ | hlast
    · obtain ⟨j, hj, herror, -⟩ :=
        ((foldlM_addInputTotals_useError hacc).1 huse).resolve_left Bool.false_ne_true
      rw [hnone j hj] at herror
      cases herror
    · exact hlast
  next => cases he

/-- A Bitcoin PSBT spending two wallet outpoints, with an output of 0. -/
def twoErrorsPsbt : Pset :=
  ⟨[⟨"aa", 0, 0, 0, false, 0, some 5, [], []⟩, ⟨"bb", 0, 0, 0, false, 0, some 5, [], []⟩],
    [⟨true, 0, [0x51], []⟩]⟩

/-- The wallet's UTXOs for `twoErrorsPsbt`: both carry an error, and the second is marked
`skip_signing`. -/
def twoErrorsUtxos : Utxos :=
  .flat [[("txhash", .str "aa"), ("pt_idx", .num 0), ("satoshi", .num 5),
      ("error", .str "first")],
    [("txhash", .str "bb"), ("pt_idx", .num 0), ("satoshi", .num 5), ("error", .str "second"),
      ("skip_signing", .bool true)]]

theorem getDetails_error_text_of_skipped_input :
    ∃ R, getDetails (.foreign "btc") false twoErrorsPsbt twoErrorsUtxos = .ok R ∧
      R.error = some "second" ∧
      R.transactionInputs.map (fun j => (j.jStrOrEmpty "error", boolOrFalse j "skip_signing")) =
        [("first", false), ("second", true)] ∧
      ∃ pre j post, R.transactionInputs = pre ++ j :: post ∧ hasError j = true ∧
        "second" = j.jStrOrEmpty "error" ∧ ∀ k ∈ post, hasError k = false := by
  obtain ⟨R, hR, he, hinputs⟩ :
      ∃ R, getDetails (.foreign "btc") false twoErrorsPsbt twoErrorsUtxos = .ok R ∧
        R.error = some "second" ∧
        R.transactionInputs.map (fun j => (j.jStrOrEmpty "error", boolOrFalse j "skip_signing")) =
          [("first", false), ("second", true)] :=
    ⟨_, rfl, rfl, rfl⟩
  exact ⟨R, hR, he, hinputs, getDetails_error_text hR he⟩

/-! ## One UTXO, two inputs -/

/-- Two Liquid inputs spending the outpoint of one wallet UTXO, and a fee output of twice
its amount: both inputs are reported as that UTXO, its 1000 satoshi are counted twice, and
the fee assertion passes. With the move `take_matching_utxo`'s comment describes, the second
input is a non-wallet input that fails to unblind. -/
theorem getDetails_counts_utxo_twice :
    (getDetails (.foreign "ab") true
        ⟨[⟨"aa", 0, 0, 0, false, 0, some 1000, [], []⟩, ⟨"aa", 0, 0, 0, false, 0, some 1000, [], []⟩],
          [⟨true, 2000, [], [(outAsset, [0xab])]⟩]⟩
        (.flat [[("txhash", .str "aa"), ("pt_idx", .num 0), ("satoshi", .num 1000),
          ("asset_id", .str "ab")]])).map
        (fun R => (R.transactionInputs, inputTotal true "ab" R.transactionInputs, R.fee.toNat)) =
      .ok ([[("txhash", .str "aa"), ("pt_idx", .num 0), ("satoshi", .num 1000), ("asset_id", .str "ab")],
          [("txhash", .str "aa"), ("pt_idx", .num 0), ("satoshi", .num 1000), ("asset_id", .str "ab")]],
        2000, 2000) ∧
    (inputsToJsonMoving (.foreign "ab") true
        [[("txhash", .str "aa"), ("pt_idx", .num 0), ("satoshi", .num 1000), ("asset_id", .str "ab")]]
        [⟨"aa", 0, 0, 0, false, 0, some 1000, [], []⟩, ⟨"aa", 0, 0, 0, false, 0, some 1000, [], []⟩]).map
        (·.1) =
      .ok [[("txhash", .str "aa"), ("pt_idx", .num 0), ("satoshi", .num 1000), ("asset_id", .str "ab")],
        [("txhash", .str "aa"), ("pt_idx", .num 0), ("sequence", .num 0), ("skip_signing", .bool true),
          ("error", .str "failed to unblind utxo")]] :=
  ⟨rfl, rfl⟩


end Gdk
