/-
# The signer: credentials, device and master blinding key

`signer::signer` (signer.cpp 157–179) with `get_credentials_json` and
`get_device_json`, and the accessors that read what they build: `get_mnemonic`,
`get_credentials`, `set_master_blinding_key`, `get_blinding_key_from_script`,
`is_compatible_with`, and the capability accessors (signer.cpp 210–234).

The constructor sanitises the credentials first: a mnemonic (decrypted with its
password) becomes a mnemonic and its seed, a 129-character hex string ending in `X`
becomes a seed, and watch-only logins keep their username, descriptors or extended
pubkeys. The device descriptor is then taken from the hardware device when one is
given, and otherwise chosen by the kind of credentials; defaults fill the missing
capabilities.

Main results:

* `getMnemonic_reimport`: a software signer rebuilt from the mnemonic it exports is
  the same signer;
* `setMasterBlindingKey_exported`: a master blinding key exported by one Liquid signer
  and imported by another gives the same blinding keys for every script;
* `make_device_matches_credentials`: what the device type says about the credentials;
* `isCompatibleWith_make`: two constructed signers with equal devices are compatible exactly
  when their credentials are equal, whatever master blinding keys they imported, and the
  call throws on the null credentials of a hardware signer;
* `make_capabilities`: when the capability accessors can throw.
-/
import Gdk.Json
import Gdk.Signer.KeyCache

namespace Gdk

/-- The 64-byte master blinding key (`blinding_key_t`, `SHA512_LEN` bytes). -/
def BlindingKey := { k : Bytes // k.length = 64 }

/-- The wally and `utils.hpp` functions the signer calls besides BIP32 derivation. -/
structure Wally (Key : Type) extends Bip32 Key where
  /-- `bip32_key_from_seed_alloc(seed, version, 0)`, for mainnet or testnet versions. -/
  keyFromSeed : Bytes → Bool → Key
  /-- `asset_blinding_key_from_seed` (SLIP-77). -/
  blindingKeyFromSeed : Bytes → BlindingKey
  /-- `asset_blinding_key_to_ec_private_key(master_blinding_key, script)`. -/
  blindingKeyToPrivKey : BlindingKey → Bytes → Bytes
  /-- `bip39_mnemonic_to_seed(mnemonic, passphrase)`. -/
  mnemonicToSeed : String → String → Bytes
  /-- `encrypt_mnemonic(plaintext_mnemonic, password)`. -/
  encryptMnemonic : String → String → String
  /-- `decrypt_mnemonic(encrypted_mnemonic, password)`; `none` where it throws. -/
  decryptMnemonic : String → String → Option String

/-- A symbolic wally over `Bip32.symbolic`, enough to run the signer on concrete
credentials: every seed gives the key `m`, and a mnemonic encrypted with a password is the
mnemonic marked with a leading `!`. -/
def Wally.symbolic : Wally (List Char) :=
  { Bip32.symbolic with
    keyFromSeed := fun _ _ => ['m']
    blindingKeyFromSeed := fun _ => ⟨List.replicate 64 0, rfl⟩
    blindingKeyToPrivKey := fun k script => k.val.drop 32 ++ script
    mnemonicToSeed := fun _ _ => []
    encryptMnemonic := fun m pw => if pw = "" then m else ⟨'!' :: m.data⟩
    decryptMnemonic := fun x _ => match x.data with
      | '!' :: m => if ' ' ∈ m then some ⟨m⟩ else none
      | _ => none }

/-- What the constructor reads of `network_parameters`. -/
structure NetParams where
  isMainNet : Bool
  isLiquid : Bool

/-- The state of a signer. `m_btc_version` is not read by the functions modelled here. -/
structure Signer (Key : Type) where
  isMainNet : Bool
  isLiquid : Bool
  /-- `m_credentials`, as `get_credentials_json` sanitised them. -/
  credentials : JsonObj
  /-- `m_device`. -/
  device : JsonObj
  masterKey : Option Key
  masterBlindingKey : Option BlindingKey
  cachedBip32Xpubs : Cache

variable {Key : Type} (W : Wally Key)

/-! ## Credentials -/

/-- The descriptor and extended-pubkey watch-only logins (signer.cpp 60–74). -/
def descriptorCredentials (credentials : JsonObj) : Except Failure JsonObj :=
  match credentials.jArray "core_descriptors" with
  | some descriptors =>
    if (credentials.jArray "slip132_extended_pubkeys").isSome then
      throw (.userError "cannot use slip132_extended_pubkeys and core_descriptors")
    else pure [("core_descriptors", .arr descriptors)]
  | none =>
    match credentials.jArray "slip132_extended_pubkeys" with
    | some pubkeys => pure [("slip132_extended_pubkeys", .arr pubkeys)]
    | none => throw (.userError "Invalid credentials")

/-- The credentials of a mnemonic login (signer.cpp 38–50): the mnemonic, its seed, and
the bip39 passphrase when it is not empty. -/
def mnemonicCredentials (mnemonic passphrase : String) : JsonObj :=
  let ret : JsonObj :=
    [("mnemonic", .str mnemonic), ("seed", .str (b2h (W.mnemonicToSeed mnemonic passphrase)))]
  if passphrase ≠ "" then ret.set "bip39_passphrase" (.str passphrase) else ret

/-- `get_credentials_json` (signer.cpp 20–75). -/
def getCredentialsJson (credentials : JsonObj) : Except Failure JsonObj :=
  if credentials = [] then pure [] else
  match credentials.jStr "username" with
  | some username =>
    match credentials.jStr "password" with
    | some password => pure [("username", .str username), ("password", .str password)]
    | none => throw .exception
  | none =>
    match credentials.jStr "mnemonic" with
    | some mnemonic =>
      let bip39Passphrase := credentials.jStr "bip39_passphrase"
      if ' ' ∈ mnemonic.data then do
        -- Mnemonic, possibly encrypted
        let mnemonic ← match credentials.jStr "password" with
          | some password =>
            if bip39Passphrase.isSome then
              throw (.assertion "cannot use bip39_passphrase and password")
            else match W.decryptMnemonic mnemonic password with
              | some m => pure m
              | none => throw .exception
          | none => pure mnemonic
        pure (mnemonicCredentials W mnemonic (bip39Passphrase.getD ""))
      else if mnemonic.utf8ByteSize = 129 ∧ mnemonic.data.getLast? = some 'X' then
        -- Hex seed (a 512 bit bip32 seed encoding in hex with 'X' appended)
        if bip39Passphrase.isSome then throw (.assertion "cannot use bip39_passphrase and hex seed")
        else pure [("seed", .str ⟨mnemonic.data.dropLast⟩)]
      else descriptorCredentials credentials
    | none => descriptorCredentials credentials

/-! ## Device -/

/-- `GREEN_DEVICE_JSON`. `liquid_support_level` and `ae_protocol_support_level` are
stored as their numeric values (`none = 0`, `lite = 1`). -/
def greenDeviceJson : JsonObj :=
  [("device_type", .str "green-backend"), ("supports_low_r", .bool true),
    ("supports_arbitrary_scripts", .bool true), ("supports_host_unblinding", .bool false),
    ("supports_external_blinding", .bool true), ("supports_liquid", .num 1),
    ("supports_ae_protocol", .num 0)]

/-- `WATCH_ONLY_DEVICE_JSON`. -/
def watchOnlyDeviceJson : JsonObj :=
  [("device_type", .str "watch-only"), ("supports_low_r", .bool true),
    ("supports_arbitrary_scripts", .bool true), ("supports_host_unblinding", .bool true),
    ("supports_external_blinding", .bool true), ("supports_liquid", .num 1),
    ("supports_ae_protocol", .num 0)]

/-- `SOFTWARE_DEVICE_JSON`. -/
def softwareDeviceJson : JsonObj :=
  [("device_type", .str "software"), ("supports_low_r", .bool true),
    ("supports_arbitrary_scripts", .bool true), ("supports_host_unblinding", .bool true),
    ("supports_external_blinding", .bool true), ("supports_liquid", .num 1),
    ("supports_ae_protocol", .num 0)]

/-- The capability defaults of `get_device_json` (signer.cpp 111–118). -/
def addDeviceDefaults (ret : JsonObj) : JsonObj :=
  (((((((ret.addIfMissing "supports_low_r" (.bool false)).addIfMissing
    "supports_arbitrary_scripts" (.bool false)).addIfMissing
    "supports_host_unblinding" (.bool false)).addIfMissing
    "supports_external_blinding" (.bool false)).addIfMissing
    "supports_liquid" (.num 0)).addIfMissing
    "supports_ae_protocol" (.num 0)).addIfMissing
    "device_type" (.str "hardware"))

/-- The credentials of a watch-only login (signer.cpp 100–101). -/
def watchOnlyLogin (credentials : JsonObj) : Bool :=
  credentials.contains "username" || credentials.contains "slip132_extended_pubkeys" ||
    credentials.contains "core_descriptors"

/-- The device-type checks that end `get_device_json` (signer.cpp 119–130). -/
def checkDeviceType (ret : JsonObj) : Except Failure JsonObj :=
  let deviceType := ret.jStrOrEmpty "device_type"
  if deviceType = "hardware" then
    match ret.find? "name" with
    | some (.str name) =>
      if name = "" then throw (.userError "Hardware device JSON requires a non-empty 'name' element")
      else pure ret
    | none => throw (.userError "Hardware device JSON requires a non-empty 'name' element")
    | some _ => throw .exception
  else if deviceType = "green-backend" then pure greenDeviceJson
  else if deviceType ≠ "software" ∧ deviceType ≠ "watch-only" then
    throw (.userError ("Unknown device type " ++ deviceType))
  else pure ret

/-- `get_device_json` (signer.cpp 92–131). `device` is `hw_device["device"]`, empty when
`hw_device` is empty or has no device. -/
def getDeviceJson (device credentials : JsonObj) : Except Failure JsonObj := do
  let ret ←
    if device ≠ [] then
      if credentials ≠ [] then
        throw (.userError "HWW/remote signer and login credentials cannot be used together")
      else pure device
    else if watchOnlyLogin credentials then pure watchOnlyDeviceJson
    else if credentials.contains "seed" then pure softwareDeviceJson
    else throw (.userError "Hardware device or credentials required")
  checkDeviceType (addDeviceDefaults ret)

/-- `get_liquid_support()`: `m_device.at("supports_liquid")` as its level. -/
def liquidSupport (device : JsonObj) : Except Failure Int :=
  match device.find? "supports_liquid" with
  | some (.num n) => pure n
  | _ => throw .exception

/-- `j_boolref(j, key)`. -/
def boolRef (o : JsonObj) (key : String) : Except Failure Bool :=
  match o.find? key with
  | some (.bool b) => pure b
  | _ => throw .exception

/-- `j.at(key)` read as a support level (`liquid_support_level`,
`ae_protocol_support_level`): the level's number. -/
def levelRef (o : JsonObj) (key : String) : Except Failure Int :=
  match o.find? key with
  | some (.num n) => pure n
  | _ => throw .exception

theorem boolRef_toBool (o : JsonObj) (key : String) :
    (boolRef o key).toBool = (o.find? key).any Json.isBool := by
  unfold boolRef
  cases o.find? key with
  | none => rfl
  | some v => cases v <;> rfl

theorem levelRef_toBool (o : JsonObj) (key : String) :
    (levelRef o key).toBool = (o.find? key).any Json.isNum := by
  unfold levelRef
  cases o.find? key with
  | none => rfl
  | some v => cases v <;> rfl

/-! ## Construction -/

/-- The constructor after the credentials are sanitised (signer.cpp 163–178). -/
def Signer.ofCredentials (net : NetParams) (device credentials : JsonObj) :
    Except Failure (Signer Key) := do
  let dev ← getDeviceJson device credentials
  if net.isLiquid then
    if (← liquidSupport dev) = 0 then throw (.userError "id_the_hardware_wallet_you_are")
  match credentials.jStr "seed" with
  | none => pure ⟨net.isMainNet, net.isLiquid, credentials, dev, none, none, fun _ => none⟩
  | some seedHex =>
    match h2b seedHex with
    | none => throw .exception
    | some seed =>
      pure ⟨net.isMainNet, net.isLiquid, credentials, dev, some (W.keyFromSeed seed net.isMainNet),
        if net.isLiquid then some (W.blindingKeyFromSeed seed) else none, fun _ => none⟩

/-- `signer::signer(net_params, hw_device, credentials)`. -/
def Signer.make (net : NetParams) (device credentials : JsonObj) : Except Failure (Signer Key) := do
  let creds ← getCredentialsJson W credentials
  Signer.ofCredentials W net device creds

/-! ## What get_credentials_json returns -/

/-- A hex seed as `get_credentials_json` takes it in place of a mnemonic: no space, 129
bytes, and a final `X`. -/
def HexSeed (m : String) : Prop :=
  ' ' ∉ m.data ∧ m.utf8ByteSize = 129 ∧ m.data.getLast? = some 'X'

theorem descriptorCredentials_no_seed {credentials creds : JsonObj}
    (h : descriptorCredentials credentials = .ok creds) : creds.contains "seed" = false := by
  unfold descriptorCredentials at h
  split at h
  · split_ifs at h
    cases h
    rfl
  · split at h
    · cases h
      rfl
    · cases h

/-- The credentials that hold a seed are those of a mnemonic, given or decrypted, and
those of a hex seed. -/
theorem getCredentialsJson_seed {credentials creds : JsonObj}
    (h : getCredentialsJson W credentials = .ok creds) (hs : creds.contains "seed" = true) :
    (∃ x m p, ' ' ∈ x.data ∧ (m = x ∨ ∃ pw, W.decryptMnemonic x pw = some m) ∧
      creds = mnemonicCredentials W m p) ∨
    ∃ m, HexSeed m ∧ creds = [("seed", .str ⟨m.data.dropLast⟩)] := by
  unfold getCredentialsJson at h
  dsimp only at h
  by_cases h0 : credentials = []
  · rw [if_pos h0] at h
    cases h
    cases hs
  rw [if_neg h0] at h
  split at h
  next =>
    split at h
    · cases h
      simp [JsonObj.contains, JsonObj.find?_cons] at hs
    · cases h
  split at h
  next x hx =>
    by_cases hsp : ' ' ∈ x.data
    · rw [if_pos hsp] at h
      refine .inl ⟨x, ?_⟩
      split at h
      next pw hpw =>
        by_cases hb : (credentials.jStr "bip39_passphrase").isSome = true
        · rw [if_pos hb] at h
          cases h
        rw [if_neg hb] at h
        split at h
        next m hm =>
          cases h
          exact ⟨m, _, hsp, .inr ⟨pw, hm⟩, rfl⟩
        next => cases h
      next =>
        cases h
        exact ⟨x, _, hsp, .inl rfl, rfl⟩
    rw [if_neg hsp] at h
    by_cases hhex : x.utf8ByteSize = 129 ∧ x.data.getLast? = some 'X'
    · rw [if_pos hhex] at h
      split_ifs at h
      cases h
      exact .inr ⟨x, ⟨hsp, hhex⟩, rfl⟩
    rw [if_neg hhex] at h
    exact absurd hs (by rw [descriptorCredentials_no_seed h]; decide)
  next => exact absurd hs (by rw [descriptorCredentials_no_seed h]; decide)

/-! ## What get_device_json accepts -/

/-- What `get_device_json` guarantees of a descriptor it returns: one of the four device
types, a non-empty name on a hardware device, and the Green backend only as
`GREEN_DEVICE_JSON`. -/
def ValidDevice (dev : JsonObj) : Prop :=
  (dev.jStrOrEmpty "device_type" = "hardware" ∨ dev.jStrOrEmpty "device_type" = "green-backend" ∨
    dev.jStrOrEmpty "device_type" = "software" ∨ dev.jStrOrEmpty "device_type" = "watch-only") ∧
  (dev.jStrOrEmpty "device_type" = "hardware" →
    ∃ name, dev.find? "name" = some (.str name) ∧ name ≠ "") ∧
  (dev.jStrOrEmpty "device_type" = "green-backend" → dev = greenDeviceJson)

theorem validDevice_of_software_or_watchOnly {dev : JsonObj}
    (h : dev.jStrOrEmpty "device_type" = "software" ∨ dev.jStrOrEmpty "device_type" = "watch-only") :
    ValidDevice dev := by
  refine ⟨.inr (.inr h), fun hh => ?_, fun hg => ?_⟩ <;> rcases h with h | h <;> simp_all

theorem validDevice_software : ValidDevice softwareDeviceJson :=
  validDevice_of_software_or_watchOnly (.inl rfl)

theorem validDevice_watchOnly : ValidDevice watchOnlyDeviceJson :=
  validDevice_of_software_or_watchOnly (.inr rfl)

theorem validDevice_green : ValidDevice greenDeviceJson :=
  ⟨.inr (.inl rfl), fun h => absurd h (by decide), fun _ => rfl⟩

theorem checkDeviceType_valid {ret dev : JsonObj} (h : checkDeviceType ret = .ok dev) :
    ValidDevice dev := by
  unfold checkDeviceType at h
  dsimp only at h
  split_ifs at h with hh hg ht
  · split at h
    next name hn =>
      split_ifs at h with hname
      cases h
      exact ⟨.inl hh, fun _ => ⟨name, hn, hname⟩, fun hg => absurd (hh.symm.trans hg) (by decide)⟩
    all_goals cases h
  · cases h
    exact validDevice_green
  · cases h
    exact validDevice_of_software_or_watchOnly (by tauto)

@[simp] theorem checkDeviceType_software :
    checkDeviceType (addDeviceDefaults softwareDeviceJson) = .ok softwareDeviceJson := rfl

@[simp] theorem checkDeviceType_watchOnly :
    checkDeviceType (addDeviceDefaults watchOnlyDeviceJson) = .ok watchOnlyDeviceJson := rfl

/-- Without a hardware device the descriptor is the canonical one for the credentials;
with one, the credentials are empty. -/
theorem getDeviceJson_eq_ok {device credentials dev : JsonObj}
    (h : getDeviceJson device credentials = .ok dev) :
    (device = [] ∧ credentials ≠ [] ∧
      (watchOnlyLogin credentials = true ∧ dev = watchOnlyDeviceJson ∨
        watchOnlyLogin credentials = false ∧ credentials.contains "seed" = true ∧
          dev = softwareDeviceJson)) ∨
    (device ≠ [] ∧ credentials = [] ∧ ValidDevice dev) := by
  unfold getDeviceJson at h
  by_cases hd : device = []
  · subst hd
    by_cases hw : watchOnlyLogin credentials = true
    · simp only [ne_eq, not_true_eq_false, if_false, hw, if_true, pure_bind,
        checkDeviceType_watchOnly, Except.ok.injEq] at h
      refine .inl ⟨rfl, ?_, .inl ⟨hw, h.symm⟩⟩
      rintro rfl
      exact absurd hw (by decide)
    · by_cases hs : credentials.contains "seed" = true
      · simp only [ne_eq, not_true_eq_false, if_false, hw, Bool.false_eq_true, hs, if_true,
          pure_bind, checkDeviceType_software, Except.ok.injEq] at h
        refine .inl ⟨rfl, ?_, .inr ⟨by simpa using hw, hs, h.symm⟩⟩
        rintro rfl
        exact absurd hs (by decide)
      · simp only [ne_eq, not_true_eq_false, if_false, hw, hs] at h
        cases h
  · by_cases hc : credentials = []
    · simp only [ne_eq, hd, not_false_eq_true, if_true, hc, not_true_eq_false, if_false, pure_bind] at h
      exact .inr ⟨hd, hc, checkDeviceType_valid h⟩
    · simp only [ne_eq, hd, not_false_eq_true, if_true, hc] at h
      cases h

/-- What `checkDeviceType` returns: the Green backend's descriptor, or the one it checked. -/
theorem checkDeviceType_eq_ok {ret dev : JsonObj} (h : checkDeviceType ret = .ok dev) :
    dev = greenDeviceJson ∨ dev = ret ∧ ret.jStrOrEmpty "device_type" ≠ "green-backend" := by
  unfold checkDeviceType at h
  dsimp only at h
  split_ifs at h with hh hg
  · split at h
    · split_ifs at h
      cases h
      exact .inr ⟨rfl, by rw [hh]; decide⟩
    all_goals cases h
  · cases h
    exact .inl rfl
  · cases h
    exact .inr ⟨rfl, hg⟩

/-- A caller's descriptor is checked with its defaults filled in. -/
theorem getDeviceJson_of_device {device credentials dev : JsonObj}
    (h : getDeviceJson device credentials = .ok dev) (hd : device ≠ []) :
    checkDeviceType (addDeviceDefaults device) = .ok dev := by
  unfold getDeviceJson at h
  rw [if_pos hd] at h
  split_ifs at h
  · cases h
  · rwa [pure_bind] at h

/-! ## Accessors -/

namespace Signer

variable {W}

/-- `j_strref(m_device, "device_type")`. -/
def deviceType (s : Signer Key) : String :=
  s.device.jStrOrEmpty "device_type"

/-- `is_hardware() || is_watch_only() || is_remote()`. -/
def hasNoMnemonic (s : Signer Key) : Bool :=
  s.deviceType = "hardware" || s.deviceType = "watch-only" || s.deviceType = "green-backend"

/-- `signer::is_descriptor_watch_only`. -/
def isDescriptorWatchOnly (s : Signer Key) : Bool :=
  s.credentials.contains "core_descriptors" || s.credentials.contains "slip132_extended_pubkeys"

variable (W) in
/-- `signer::get_mnemonic(password)`. -/
def getMnemonic (s : Signer Key) (password : String) : Except Failure String :=
  if s.hasNoMnemonic then pure ""
  else match s.credentials.jStr "mnemonic" with
    | some mnemonic => pure (W.encryptMnemonic mnemonic password)
    | none =>
      match s.credentials.jStr "seed" with
      | some seed => pure (seed ++ "X")
      | none => throw .exception

/-- `signer::get_credentials`: the credentials, with the hex of the last 32 bytes of the
master blinding key on Liquid. -/
def getCredentials (s : Signer Key) : JsonObj :=
  match s.isLiquid, s.masterBlindingKey with
  | true, some k => s.credentials.set "master_blinding_key" (.str (b2h (k.val.drop 32)))
  | _, _ => s.credentials

/-- The key `set_master_blinding_key` stores for a key of 32 or 64 bytes: left-padded
with zeros to 64 bytes. -/
def paddedBlindingKey (bytes : Bytes) (h : bytes.length = 64 ∨ bytes.length = 32) :
    BlindingKey :=
  ⟨List.replicate (64 - bytes.length) 0 ++ bytes, by rcases h with h | h <;> simp [h]⟩

/-- `signer::set_master_blinding_key(blinding_key_hex)`. -/
def setMasterBlindingKey (s : Signer Key) (hex : String) : Except Failure (Signer Key) :=
  if hex = "" then pure s
  else match h2b hex with
    | none => throw .exception
    | some bytes =>
      if h : bytes.length = 64 ∨ bytes.length = 32 then
        pure { s with masterBlindingKey := some (paddedBlindingKey bytes h) }
      else throw (.assertion "")

variable (W) in
/-- `signer::get_blinding_key_from_script`. -/
def getBlindingKeyFromScript (s : Signer Key) (script : Bytes) : Except Failure Bytes :=
  match s.masterBlindingKey with
  | some k => pure (W.blindingKeyToPrivKey k script)
  | none => throw (.assertion "")

/-- `get_credentials().erase(key)`. `get_credentials_json` returns null (`return {}`) when
it is given no credentials and a non-empty object otherwise, so here the empty list stands
for that null. `get_credentials` returns the null as it is, unless on Liquid it adds the
master blinding key, which makes it an object; `erase` on null throws. -/
def eraseCredential (credentials : JsonObj) (key : String) : Except Failure JsonObj :=
  if credentials = [] then throw .exception else pure (credentials.erase key)

/-- `signer::is_compatible_with` (signer.cpp 188–198): equal devices, and then equal
credentials apart from the master blinding key, compared as objects. -/
def isCompatibleWith (s other : Signer Key) : Except Failure Bool :=
  if !s.device.sameMembers other.device then pure false
  else do
    let myCredentials ← eraseCredential s.getCredentials "master_blinding_key"
    let otherCredentials ← eraseCredential other.getCredentials "master_blinding_key"
    pure (myCredentials.sameMembers otherCredentials)

/-- `signer::get_ae_protocol_support()`. -/
def getAeProtocolSupport (s : Signer Key) : Except Failure Int :=
  levelRef s.device "supports_ae_protocol"

/-- `signer::use_ae_protocol()`: the level is not `none`. -/
def useAeProtocol (s : Signer Key) : Except Failure Bool := do
  return (← s.getAeProtocolSupport) ≠ 0

/-- `signer::supports_low_r()`: `!use_ae_protocol() && j_boolref(m_device, "supports_low_r")`;
the flag is not read when the AE protocol is used. -/
def supportsLowR (s : Signer Key) : Except Failure Bool := do
  if ← s.useAeProtocol then pure false else boolRef s.device "supports_low_r"

/-- `signer::supports_arbitrary_scripts()`. -/
def supportsArbitraryScripts (s : Signer Key) : Except Failure Bool :=
  boolRef s.device "supports_arbitrary_scripts"

/-- `signer::get_liquid_support()`. -/
def getLiquidSupport (s : Signer Key) : Except Failure Int :=
  liquidSupport s.device

/-- `signer::supports_host_unblinding()`. -/
def supportsHostUnblinding (s : Signer Key) : Except Failure Bool :=
  boolRef s.device "supports_host_unblinding"

/-- `signer::supports_external_blinding()`. -/
def supportsExternalBlinding (s : Signer Key) : Except Failure Bool :=
  boolRef s.device "supports_external_blinding"

/-- `signer::is_remote()`. -/
def isRemote (s : Signer Key) : Bool :=
  s.deviceType = "green-backend"

end Signer

/-! ## The constructor -/

theorem make_eq_ok {net : NetParams} {device credentials : JsonObj} {S : Signer Key}
    (h : Signer.make W net device credentials = .ok S) :
    ∃ creds, getCredentialsJson W credentials = .ok creds ∧
      Signer.ofCredentials W net device creds = .ok S := by
  unfold Signer.make at h
  cases hc : getCredentialsJson W credentials with
  | error e => rw [hc] at h; cases h
  | ok creds => rw [hc] at h; exact ⟨creds, rfl, h⟩

theorem ofCredentials_eq_ok {net : NetParams} {device creds : JsonObj} {S : Signer Key}
    (h : Signer.ofCredentials W net device creds = .ok S) :
    getDeviceJson device creds = .ok S.device ∧ S.credentials = creds := by
  unfold Signer.ofCredentials at h
  cases hd : getDeviceJson device creds with
  | error e => rw [hd] at h; cases h
  | ok dev =>
    rw [hd] at h
    simp only [bind, Except.bind, pure, Except.pure] at h
    repeat' split at h
    all_goals cases h
    all_goals exact ⟨rfl, rfl⟩

theorem mnemonicCredentials_eq (m p : String) :
    mnemonicCredentials W m p = [("mnemonic", .str m), ("seed", .str (b2h (W.mnemonicToSeed m p)))] ++
      if p = "" then [] else [("bip39_passphrase", .str p)] := by
  unfold mnemonicCredentials
  split_ifs <;> simp_all [JsonObj.set, JsonObj.contains, JsonObj.find?_cons]

theorem watchOnlyLogin_mnemonicCredentials (m p : String) :
    watchOnlyLogin (mnemonicCredentials W m p) = false := by
  rw [mnemonicCredentials_eq]
  split_ifs <;> simp [watchOnlyLogin, JsonObj.contains, JsonObj.find?_append, JsonObj.find?_cons]

/-- Credentials with a seed are not a watch-only login. -/
theorem getCredentialsJson_seed_watchOnly {credentials creds : JsonObj}
    (h : getCredentialsJson W credentials = .ok creds) (hs : creds.contains "seed" = true) :
    watchOnlyLogin creds = false := by
  rcases getCredentialsJson_seed W h hs with ⟨-, m, p, -, -, rfl⟩ | ⟨m, -, rfl⟩
  · exact watchOnlyLogin_mnemonicCredentials W m p
  · simp [watchOnlyLogin, JsonObj.contains, JsonObj.find?_cons]

theorem descriptorCredentials_blindingKey {credentials creds : JsonObj}
    (h : descriptorCredentials credentials = .ok creds) :
    creds.find? "master_blinding_key" = none := by
  unfold descriptorCredentials at h
  repeat' split at h
  all_goals cases h
  all_goals rfl

theorem mnemonicCredentials_blindingKey (m p : String) :
    (mnemonicCredentials W m p).find? "master_blinding_key" = none := by
  rw [mnemonicCredentials_eq]
  split_ifs <;> rfl

/-- `get_credentials_json` keeps no master blinding key. -/
theorem getCredentialsJson_blindingKey {credentials creds : JsonObj}
    (h : getCredentialsJson W credentials = .ok creds) :
    creds.find? "master_blinding_key" = none := by
  unfold getCredentialsJson at h
  simp only [bind, Except.bind] at h
  repeat' split at h
  all_goals first | exact descriptorCredentials_blindingKey h | cases h
  all_goals first | rfl | exact mnemonicCredentials_blindingKey W _ _

theorem make_blindingKey {net : NetParams} {device credentials : JsonObj} {S : Signer Key}
    (h : Signer.make W net device credentials = .ok S) :
    S.credentials.find? "master_blinding_key" = none := by
  obtain ⟨creds, hc, hof⟩ := make_eq_ok W h
  rw [(ofCredentials_eq_ok W hof).2]
  exact getCredentialsJson_blindingKey W hc

/-! ## The device type matches the credentials -/

@[simp] theorem deviceType_software : softwareDeviceJson.jStrOrEmpty "device_type" = "software" := rfl

@[simp] theorem deviceType_watchOnly :
    watchOnlyDeviceJson.jStrOrEmpty "device_type" = "watch-only" := rfl

/-- **The device type matches the credentials.** A signer holds credentials exactly when no
hardware device was given. It then holds a seed exactly when it is a software signer, and a
watch-only login exactly when it is a watch-only signer, with the canonical descriptor. A
hardware signer or the Green backend holds no credentials. A given descriptor may itself
claim a software or watch-only signer: the signer then holds no credentials and keeps that
descriptor with its defaults added. Every descriptor is one `get_device_json` accepts. -/
theorem make_device_matches_credentials {net : NetParams} {device credentials : JsonObj}
    {S : Signer Key} (h : Signer.make W net device credentials = .ok S) :
    (S.credentials = [] ↔ device ≠ []) ∧
    (S.credentials.contains "seed" = true ↔ S.deviceType = "software" ∧ S.credentials ≠ []) ∧
    (watchOnlyLogin S.credentials = true ↔ S.deviceType = "watch-only" ∧ S.credentials ≠ []) ∧
    (S.deviceType = "hardware" ∨ S.deviceType = "green-backend" → S.credentials = []) ∧
    (S.credentials ≠ [] → S.device = softwareDeviceJson ∨ S.device = watchOnlyDeviceJson) ∧
    (device ≠ [] → S.deviceType = "software" ∨ S.deviceType = "watch-only" →
      S.credentials = [] ∧ S.device = addDeviceDefaults device) ∧
    ValidDevice S.device := by
  obtain ⟨creds, hc, hof⟩ := make_eq_ok W h
  obtain ⟨hdev, rfl⟩ := ofCredentials_eq_ok W hof
  rcases getDeviceJson_eq_ok hdev with ⟨rfl, hne, ⟨hw, hd⟩ | ⟨hw, hs, hd⟩⟩ | ⟨hd, hnil, hvalid⟩
  · -- a watch-only login
    have hs : S.credentials.contains "seed" = false :=
      Bool.eq_false_iff.2 fun hs => by simp [getCredentialsJson_seed_watchOnly W hc hs] at hw
    simp [Signer.deviceType, hd, hw, hs, hne, validDevice_watchOnly]
  · -- a software login
    simp [Signer.deviceType, hd, hw, hs, hne, validDevice_software]
  · -- a hardware device, or a descriptor that claims another type
    have hgiven : S.deviceType = "software" ∨ S.deviceType = "watch-only" →
        S.device = addDeviceDefaults device := fun ht => by
      rcases checkDeviceType_eq_ok (getDeviceJson_of_device hdev hd) with hg | ⟨hg, -⟩
      · rw [Signer.deviceType, hg] at ht
        exact absurd ht (by decide)
      · exact hg
    simpa [hnil, hd, hvalid, watchOnlyLogin, JsonObj.contains] using hgiven

theorem make_device_matches_credentials_mnemonic_or_claimed :
    (∃ S : Signer (List Char),
      Signer.make Wally.symbolic ⟨false, false⟩ [] [("mnemonic", .str "abandon about")] = .ok S ∧
      (S.credentials = [] ↔ ([] : JsonObj) ≠ []) ∧
      (S.credentials.contains "seed" = true ↔ S.deviceType = "software" ∧ S.credentials ≠ []) ∧
      (watchOnlyLogin S.credentials = true ↔ S.deviceType = "watch-only" ∧ S.credentials ≠ []) ∧
      (S.deviceType = "hardware" ∨ S.deviceType = "green-backend" → S.credentials = []) ∧
      (S.credentials ≠ [] → S.device = softwareDeviceJson ∨ S.device = watchOnlyDeviceJson) ∧
      (([] : JsonObj) ≠ [] → S.deviceType = "software" ∨ S.deviceType = "watch-only" →
        S.credentials = [] ∧ S.device = addDeviceDefaults []) ∧
      ValidDevice S.device) ∧
    ∃ S : Signer (List Char),
      Signer.make Wally.symbolic ⟨false, false⟩ [("device_type", .str "software")] [] = .ok S ∧
      (S.credentials = [] ↔ [("device_type", Json.str "software")] ≠ []) ∧
      (S.credentials.contains "seed" = true ↔ S.deviceType = "software" ∧ S.credentials ≠ []) ∧
      (watchOnlyLogin S.credentials = true ↔ S.deviceType = "watch-only" ∧ S.credentials ≠ []) ∧
      (S.deviceType = "hardware" ∨ S.deviceType = "green-backend" → S.credentials = []) ∧
      (S.credentials ≠ [] → S.device = softwareDeviceJson ∨ S.device = watchOnlyDeviceJson) ∧
      ([("device_type", Json.str "software")] ≠ [] →
        S.deviceType = "software" ∨ S.deviceType = "watch-only" →
        S.credentials = [] ∧ S.device = addDeviceDefaults [("device_type", .str "software")]) ∧
      ValidDevice S.device :=
  have hS : Signer.make Wally.symbolic ⟨false, false⟩ [] [("mnemonic", .str "abandon about")] =
      .ok ⟨false, false, [("mnemonic", .str "abandon about"), ("seed", .str "")],
        softwareDeviceJson, some ['m'], none, fun _ => none⟩ := rfl
  have hT : Signer.make Wally.symbolic ⟨false, false⟩ [("device_type", .str "software")] [] =
      .ok ⟨false, false, [], addDeviceDefaults [("device_type", .str "software")], none, none,
        fun _ => none⟩ := rfl
  ⟨⟨_, hS, make_device_matches_credentials Wally.symbolic hS⟩,
    _, hT, make_device_matches_credentials Wally.symbolic hT⟩

/-- A descriptor that claims a software signer is accepted without credentials: the signer
is a software signer with no seed, and its descriptor is not `SOFTWARE_DEVICE_JSON`. -/
theorem make_software_device_without_seed :
    ¬ ∀ (device credentials : JsonObj) (S : Signer (List Char)),
      Signer.make Wally.symbolic ⟨false, false⟩ device credentials = .ok S →
      (S.deviceType = "software" ↔ S.credentials.contains "seed" = true) := by
  intro h
  have hsw := h [("device_type", .str "software")] []
    ⟨false, false, [], addDeviceDefaults [("device_type", .str "software")], none, none,
      fun _ => none⟩ rfl
  exact Bool.false_ne_true (hsw.1 rfl)

/-! ## Exporting and re-importing a mnemonic -/

/-- What the signer relies on of `encrypt_mnemonic` and `decrypt_mnemonic` (utils.cpp, not
under `src/`). Decryption undoes encryption with a password, and the empty password leaves
a mnemonic as it is. Both convert through bip39 entropy, so what they return for a mnemonic
is a mnemonic again: words separated by spaces. -/
structure Wally.MnemonicLawful (W : Wally Key) : Prop where
  decrypt_encrypt : ∀ m pw, pw ≠ "" → ' ' ∈ m.data →
    W.decryptMnemonic (W.encryptMnemonic m pw) pw = some m
  encrypt_empty : ∀ m, ' ' ∈ m.data → W.encryptMnemonic m "" = m
  encrypt_words : ∀ m pw, ' ' ∈ m.data → ' ' ∈ (W.encryptMnemonic m pw).data
  decrypt_words : ∀ x pw m, ' ' ∈ x.data → W.decryptMnemonic x pw = some m → ' ' ∈ m.data

theorem Wally.symbolic_mnemonicLawful : Wally.symbolic.MnemonicLawful where
  decrypt_encrypt m pw hpw hm := by simp [Wally.symbolic, hpw, hm]
  encrypt_empty m _ := by simp [Wally.symbolic]
  encrypt_words m pw hm := by by_cases hpw : pw = "" <;> simp [Wally.symbolic, hpw, hm]
  decrypt_words x pw m _ h := by
    simp only [Wally.symbolic] at h
    split at h
    · split_ifs at h with hm
      cases h
      exact hm
    · cases h

/-- The credentials a wallet is restored from: the exported mnemonic, the password it was
exported with when there is one, and the bip39 passphrase. -/
def restoreCredentials (mnemonic password : String) (passphrase : Option String) : JsonObj :=
  [("mnemonic", .str mnemonic)] ++ (if password = "" then [] else [("password", .str password)]) ++
    match passphrase with
    | some p => [("bip39_passphrase", .str p)]
    | none => []

section Restore

variable (mnemonic password : String) (passphrase : Option String)

theorem restoreCredentials_ne_nil : restoreCredentials mnemonic password passphrase ≠ [] := by
  simp [restoreCredentials]

theorem restoreCredentials_jStr :
    (restoreCredentials mnemonic password passphrase).jStr "username" = none ∧
    (restoreCredentials mnemonic password passphrase).jStr "mnemonic" = some mnemonic ∧
    (restoreCredentials mnemonic password passphrase).jStr "password" =
      (if password = "" then none else some password) ∧
    (restoreCredentials mnemonic password passphrase).jStr "bip39_passphrase" = passphrase := by
  unfold restoreCredentials JsonObj.jStr
  split_ifs <;> cases passphrase <;> simp [JsonObj.find?_append, JsonObj.find?_cons]

end Restore

theorem mnemonicCredentials_jStr (m p : String) :
    (mnemonicCredentials W m p).jStr "mnemonic" = some m ∧
    (mnemonicCredentials W m p).jStr "bip39_passphrase" = (if p = "" then none else some p) := by
  rw [mnemonicCredentials_eq]
  split_ifs <;> simp [JsonObj.jStr, JsonObj.find?_append, JsonObj.find?_cons]

/-- A mnemonic, encrypted with a password, comes back as the same credentials. -/
theorem getCredentialsJson_restore_mnemonic (hW : W.MnemonicLawful) {m p pw : String}
    (hm : ' ' ∈ m.data) (hpw : pw = "" ∨ p = "") :
    getCredentialsJson W (restoreCredentials (W.encryptMnemonic m pw) pw
      (if p = "" then none else some p)) = .ok (mnemonicCredentials W m p) := by
  obtain ⟨hu, hmn, hpass, hbip⟩ := restoreCredentials_jStr (W.encryptMnemonic m pw) pw
    (if p = "" then none else some p)
  unfold getCredentialsJson
  simp only [restoreCredentials_ne_nil, if_false, hu, hmn, hbip, hpass, hW.encrypt_words m pw hm,
    if_true]
  by_cases hpw' : pw = ""
  · subst hpw'
    simp only [if_true, hW.encrypt_empty m hm]
    split_ifs with hp
    · subst hp
      rfl
    · rfl
  · obtain rfl : p = "" := hpw.resolve_left hpw'
    simp only [hpw', if_true, if_false, Option.isSome_none, Bool.false_eq_true,
      hW.decrypt_encrypt m pw hpw' hm]
    rfl

theorem HexSeed.dropLast_append {m : String} (hm : HexSeed m) : (⟨m.data.dropLast⟩ : String) ++ "X" = m := by
  obtain ⟨ys, hys⟩ := List.getLast?_eq_some_iff.1 hm.2.2
  obtain ⟨xs⟩ := m
  simp only at hys
  subst hys
  simp only [List.dropLast_concat]
  rfl

/-- A hex seed, with any password, comes back as the same credentials. -/
theorem getCredentialsJson_restore_hexSeed {m : String} (hm : HexSeed m) (pw : String) :
    getCredentialsJson W (restoreCredentials m pw none) = .ok [("seed", .str ⟨m.data.dropLast⟩)] := by
  obtain ⟨hu, hmn, -, hbip⟩ := restoreCredentials_jStr m pw none
  unfold getCredentialsJson
  simp only [restoreCredentials_ne_nil, if_false, hu, hmn, hbip, hm.1, hm.2, and_self, if_true]
  rfl

/-- **Exporting and re-importing a mnemonic.** A software signer built from a mnemonic or a
hex seed exports its mnemonic encrypted with a password (or its hex seed); restoring from
what it exported, with that password and the signer's bip39 passphrase, builds the same
signer: the same credentials, seed, master key and master blinding key. -/
theorem getMnemonic_reimport (hW : W.MnemonicLawful) {net : NetParams}
    {device credentials : JsonObj} {S : Signer Key}
    (hS : Signer.make W net device credentials = .ok S)
    (hseed : S.credentials.contains "seed" = true) {pw : String}
    (hpw : pw = "" ∨ S.credentials.contains "bip39_passphrase" = false) :
    ∃ mnemonic, S.getMnemonic W pw = .ok mnemonic ∧
      Signer.make W net [] (restoreCredentials mnemonic pw (S.credentials.jStr "bip39_passphrase")) =
        .ok S := by
  obtain ⟨creds, hc, hof⟩ := make_eq_ok W hS
  obtain ⟨hdev, rfl⟩ := ofCredentials_eq_ok W hof
  -- a signer with a seed is a software signer built without a device
  obtain ⟨rfl, hsoft⟩ : device = [] ∧ S.device = softwareDeviceJson := by
    rcases getDeviceJson_eq_ok hdev with ⟨hd, -, ⟨hw, -⟩ | ⟨-, -, hsw⟩⟩ | ⟨-, hnil, -⟩
    · simp [getCredentialsJson_seed_watchOnly W hc hseed] at hw
    · exact ⟨hd, hsw⟩
    · simp [hnil, JsonObj.contains] at hseed
  have hmake : ∀ creds', getCredentialsJson W creds' = .ok S.credentials →
      Signer.make W net [] creds' = .ok S := fun _ h => by rw [Signer.make, h]; exact hof
  have hget : ∀ r, S.getMnemonic W pw = r ↔ (match S.credentials.jStr "mnemonic" with
      | some mnemonic => pure (W.encryptMnemonic mnemonic pw)
      | none => match S.credentials.jStr "seed" with
        | some seed => pure (seed ++ "X")
        | none => throw .exception) = r := by
    simp [Signer.getMnemonic, Signer.hasNoMnemonic, Signer.deviceType, hsoft]
  rcases getCredentialsJson_seed W hc hseed with ⟨x, m, p, hx, hmx, hcm⟩ | ⟨m, hm, hcm⟩
  · -- a mnemonic: the stored one has words, as decryption returns words
    have hm : ' ' ∈ m.data := hmx.elim (· ▸ hx) fun ⟨_, hd⟩ => hW.decrypt_words _ _ _ hx hd
    have hp : pw = "" ∨ p = "" := hpw.imp_right fun hb => by
      by_contra hp
      simp [hcm, mnemonicCredentials_eq, hp, JsonObj.contains, JsonObj.find?_append,
        JsonObj.find?_cons] at hb
    refine ⟨W.encryptMnemonic m pw, (hget _).2 ?_, hmake _ ?_⟩
    · rw [hcm, (mnemonicCredentials_jStr W m p).1]
      rfl
    · rw [hcm, (mnemonicCredentials_jStr W m p).2]
      exact getCredentialsJson_restore_mnemonic W hW hm hp
  · -- a hex seed, exported as it was given
    refine ⟨m, (hget _).2 ?_, hmake _ ?_⟩
    · rw [hcm]
      show pure (⟨m.data.dropLast⟩ ++ "X") = _
      rw [hm.dropLast_append]
      rfl
    · rw [hcm]
      exact getCredentialsJson_restore_hexSeed W hm pw

theorem getMnemonic_reimport_abandon :
    Wally.symbolic.MnemonicLawful ∧
    Signer.make Wally.symbolic ⟨false, false⟩ [] [("mnemonic", .str "abandon about")] =
      .ok ⟨false, false, [("mnemonic", .str "abandon about"), ("seed", .str "")],
        softwareDeviceJson, some ['m'], none, fun _ => none⟩ ∧
    ∃ mnemonic, Signer.getMnemonic Wally.symbolic ⟨false, false,
        [("mnemonic", .str "abandon about"), ("seed", .str "")], softwareDeviceJson, some ['m'],
        none, fun _ => none⟩ "pw" = .ok mnemonic ∧
      Signer.make Wally.symbolic ⟨false, false⟩ [] (restoreCredentials mnemonic "pw" none) =
        .ok ⟨false, false, [("mnemonic", .str "abandon about"), ("seed", .str "")],
          softwareDeviceJson, some ['m'], none, fun _ => none⟩ :=
  have hS : Signer.make Wally.symbolic ⟨false, false⟩ [] [("mnemonic", .str "abandon about")] =
      .ok ⟨false, false, [("mnemonic", .str "abandon about"), ("seed", .str "")],
        softwareDeviceJson, some ['m'], none, fun _ => none⟩ := rfl
  ⟨Wally.symbolic_mnemonicLawful, hS,
    getMnemonic_reimport Wally.symbolic Wally.symbolic_mnemonicLawful hS rfl (.inr rfl)⟩

/-! ## Exporting and importing the master blinding key -/

theorem getCredentials_blindingKey {S : Signer Key} (hS : S.isLiquid = true) {k : BlindingKey}
    (hk : S.masterBlindingKey = some k) :
    S.getCredentials.jStr "master_blinding_key" = some (b2h (k.val.drop 32)) := by
  simp [Signer.getCredentials, hS, hk, JsonObj.jStr, JsonObj.find?_set_self]

theorem setMasterBlindingKey_half (T : Signer Key) {bytes : Bytes} (h : bytes.length = 32) :
    T.setMasterBlindingKey (b2h bytes) =
      .ok { T with masterBlindingKey := some (Signer.paddedBlindingKey bytes (.inr h)) } := by
  have hne : b2h bytes ≠ "" := fun he => by simp [b2h_eq_empty.1 he] at h
  simp [Signer.setMasterBlindingKey, hne, h2b_b2h, h]

theorem paddedBlindingKey_drop {bytes : Bytes} (h : bytes.length = 32)
    (h' : bytes.length = 64 ∨ bytes.length = 32) :
    (Signer.paddedBlindingKey bytes h').val.drop 32 = bytes := by
  simp [Signer.paddedBlindingKey, h]

/-- **Exporting and importing the master blinding key.** The hex that a Liquid signer
exports, imported into any signer, gives 32 zero bytes followed by the last 32 bytes of the
key; a Liquid signer exports that hex again, and, as SLIP-77 reads only those 32 bytes,
both signers give the same blinding key for every script. -/
theorem setMasterBlindingKey_exported
    (hslip : ∀ k k' : BlindingKey, k.val.drop 32 = k'.val.drop 32 →
      ∀ script, W.blindingKeyToPrivKey k script = W.blindingKeyToPrivKey k' script)
    {S : Signer Key} (hS : S.isLiquid = true) {k : BlindingKey} (hk : S.masterBlindingKey = some k)
    (T : Signer Key) :
    ∃ hex T', S.getCredentials.jStr "master_blinding_key" = some hex ∧
      T.setMasterBlindingKey hex = .ok T' ∧
      T'.masterBlindingKey.map Subtype.val = some (List.replicate 32 0 ++ k.val.drop 32) ∧
      (T.isLiquid = true → T'.getCredentials.jStr "master_blinding_key" = some hex) ∧
      ∀ script, T'.getBlindingKeyFromScript W script = S.getBlindingKeyFromScript W script := by
  have hlen : (k.val.drop 32).length = 32 := by simp [k.property]
  refine ⟨_, _, getCredentials_blindingKey hS hk, setMasterBlindingKey_half T hlen, ?_,
    fun hT => ?_, fun script => ?_⟩
  · simp [Signer.paddedBlindingKey, hlen]
  · simp [Signer.getCredentials, hT, JsonObj.jStr, JsonObj.find?_set_self,
      paddedBlindingKey_drop hlen]
  · simp only [Signer.getBlindingKeyFromScript, hk]
    rw [hslip _ _ (paddedBlindingKey_drop hlen _) script]

theorem setMasterBlindingKey_exported_symbolic :
    (∀ k k' : BlindingKey, k.val.drop 32 = k'.val.drop 32 →
      ∀ script, Wally.symbolic.blindingKeyToPrivKey k script =
        Wally.symbolic.blindingKeyToPrivKey k' script) ∧
    ∃ hex T', JsonObj.jStr (Signer.getCredentials (⟨false, true, [], [], none,
        some ⟨List.replicate 64 7, rfl⟩, fun _ => none⟩ : Signer (List Char)))
          "master_blinding_key" = some hex ∧
      Signer.setMasterBlindingKey (⟨false, true, [], [], none, none, fun _ => none⟩ :
        Signer (List Char)) hex = .ok T' ∧
      T'.masterBlindingKey.map Subtype.val = some (List.replicate 32 0 ++ List.replicate 32 7) ∧
      (true = true → T'.getCredentials.jStr "master_blinding_key" = some hex) ∧
      ∀ script, T'.getBlindingKeyFromScript Wally.symbolic script =
        Signer.getBlindingKeyFromScript Wally.symbolic
          ⟨false, true, [], [], none, some ⟨List.replicate 64 7, rfl⟩, fun _ => none⟩ script :=
  have hslip : ∀ k k' : BlindingKey, k.val.drop 32 = k'.val.drop 32 →
      ∀ script, Wally.symbolic.blindingKeyToPrivKey k script =
        Wally.symbolic.blindingKeyToPrivKey k' script :=
    fun _ _ h script => congrArg (· ++ script) h
  have hk : (⟨false, true, [], [], none, some ⟨List.replicate 64 7, rfl⟩, fun _ => none⟩ :
      Signer (List Char)).masterBlindingKey = some ⟨List.replicate 64 7, rfl⟩ := rfl
  ⟨hslip, setMasterBlindingKey_exported Wally.symbolic hslip rfl hk _⟩

/-- On a signer that is not on Liquid the imported key is not exported again. -/
theorem setMasterBlindingKey_not_exported_off_liquid :
    ¬ ∀ (S T T' : Signer (List Char)) (k : BlindingKey), S.isLiquid = true →
      S.masterBlindingKey = some k →
      T.setMasterBlindingKey (b2h (k.val.drop 32)) = .ok T' →
      T'.getCredentials.jStr "master_blinding_key" = S.getCredentials.jStr "master_blinding_key" := by
  intro h
  let k : BlindingKey := ⟨List.replicate 64 0, rfl⟩
  let S : Signer (List Char) := ⟨false, true, [], [], none, some k, fun _ => none⟩
  let T : Signer (List Char) := ⟨false, false, [], [], none, none, fun _ => none⟩
  have := h S T _ k rfl rfl (setMasterBlindingKey_half T (by simp [k]))
  simp [S, T, Signer.getCredentials, JsonObj.jStr, JsonObj.find?_set_self] at this

/-! ## Compatibility

`is_compatible_with` compares the devices, then erases the master blinding key from both
`get_credentials()` and compares what is left. A signer built from a hardware device holds
the null credentials `get_credentials_json` returns, and `erase` on null throws: two such
signers with equal devices are not found compatible or not, the call throws, unless on
Liquid each has a master blinding key for `get_credentials` to add. -/

/-- `is_compatible_with` erases what `get_credentials` adds. -/
theorem getCredentials_erase (S : Signer Key) :
    S.getCredentials.erase "master_blinding_key" = S.credentials.erase "master_blinding_key" := by
  unfold Signer.getCredentials
  split
  · exact JsonObj.erase_set_self _ _ _
  · rfl

/-- `get_credentials()` is null exactly when the credentials are and it adds no master
blinding key. -/
theorem getCredentials_eq_nil (S : Signer Key) :
    S.getCredentials = [] ↔
      S.credentials = [] ∧ (S.isLiquid && S.masterBlindingKey.isSome) = false := by
  unfold Signer.getCredentials
  split
  next k hl hk =>
    rw [hl, hk]
    refine iff_of_false (fun h => ?_) (by simp)
    simpa [h] using JsonObj.find?_set_self S.credentials "master_blinding_key"
      (.str (b2h (k.val.drop 32)))
  next hne =>
    have : (S.isLiquid && S.masterBlindingKey.isSome) = false := by
      cases hl : S.isLiquid <;> cases hk : S.masterBlindingKey <;> simp_all
    simp [this]

/-- A constructed signer holds null credentials exactly when it was given a device. -/
theorem make_credentials_eq_nil {net : NetParams} {device credentials : JsonObj}
    {S : Signer Key} (h : Signer.make W net device credentials = .ok S) :
    S.credentials = [] ↔ device ≠ [] := by
  obtain ⟨creds, -, hof⟩ := make_eq_ok W h
  obtain ⟨hdev, rfl⟩ := ofCredentials_eq_ok W hof
  rcases getDeviceJson_eq_ok hdev with ⟨rfl, hne, -⟩ | ⟨hd, hnil, -⟩
  · simpa using hne
  · simpa [hnil] using hd

/-- What `is_compatible_with` reads of a constructed signer, whatever master blinding key it
holds since: it throws on the null credentials of a signer given a device, unless
`get_credentials` adds the key, and otherwise reads the credentials as built. -/
theorem eraseCredential_make {net : NetParams} {device credentials : JsonObj} {S : Signer Key}
    (h : Signer.make W net device credentials = .ok S) (k : Option BlindingKey) :
    Signer.eraseCredential { S with masterBlindingKey := k }.getCredentials "master_blinding_key" =
      if device ≠ [] ∧ (S.isLiquid && k.isSome) = false then throw .exception
      else pure S.credentials := by
  simp only [Signer.eraseCredential, getCredentials_eq_nil, make_credentials_eq_nil W h,
    getCredentials_erase, JsonObj.erase_of_find?_eq_none (make_blindingKey W h)]

/-- `set_master_blinding_key` changes the master blinding key and nothing else. -/
theorem setMasterBlindingKey_eq_ok {S S' : Signer Key} {hex : String}
    (h : S.setMasterBlindingKey hex = .ok S') : ∃ k, S' = { S with masterBlindingKey := k } := by
  unfold Signer.setMasterBlindingKey at h
  repeat' split at h
  all_goals cases h
  exacts [⟨_, rfl⟩, ⟨_, rfl⟩]

/-- Any sequence of imports changes the master blinding key and nothing else. -/
theorem foldlM_setMasterBlindingKey {S' : Signer Key} :
    ∀ {hexes : List String} {S : Signer Key},
      hexes.foldlM Signer.setMasterBlindingKey S = .ok S' →
      ∃ k, S' = { S with masterBlindingKey := k }
  | [], S, h => ⟨S.masterBlindingKey, (Except.ok.inj h).symm⟩
  | _ :: _, _, h => by
    obtain ⟨T, hT, h⟩ := bind_eq_ok.1 h
    obtain ⟨k, rfl⟩ := setMasterBlindingKey_eq_ok hT
    obtain ⟨k', rfl⟩ := foldlM_setMasterBlindingKey h
    exact ⟨k', rfl⟩

/-- **Compatibility of constructed signers.** Take two signers the constructor built, each
with any master blinding keys imported since. When their devices differ they are not
compatible. When the devices are equal, the call throws if either was given a device and
has no master blinding key that `get_credentials` adds on Liquid; otherwise they are
compatible exactly when the credentials they were built with are equal. The networks and
the imported keys are not compared: `get_credentials_json` keeps no `master_blinding_key`,
so the one `get_credentials` adds is all that is erased. -/
theorem isCompatibleWith_make {net net' : NetParams}
    {device credentials device' credentials' : JsonObj} {S T S' T' : Signer Key}
    (hS : Signer.make W net device credentials = .ok S)
    (hT : Signer.make W net' device' credentials' = .ok T) {hexes hexes' : List String}
    (hS' : hexes.foldlM Signer.setMasterBlindingKey S = .ok S')
    (hT' : hexes'.foldlM Signer.setMasterBlindingKey T = .ok T') :
    S'.isCompatibleWith T' =
      if S.device.sameMembers T.device then
        if device ≠ [] ∧ (S.isLiquid && S'.masterBlindingKey.isSome) = false ∨
            device' ≠ [] ∧ (T.isLiquid && T'.masterBlindingKey.isSome) = false then
          throw .exception
        else pure (S.credentials.sameMembers T.credentials)
      else pure false := by
  obtain ⟨k, rfl⟩ := foldlM_setMasterBlindingKey hS'
  obtain ⟨k', rfl⟩ := foldlM_setMasterBlindingKey hT'
  unfold Signer.isCompatibleWith
  rw [eraseCredential_make W hS, eraseCredential_make W hT]
  dsimp only
  cases S.device.sameMembers T.device
  · rfl
  simp only [Bool.not_true, Bool.false_eq_true, if_false, if_true]
  by_cases hA : device ≠ [] ∧ (S.isLiquid && k.isSome) = false
  · rw [if_pos (Or.inl hA), if_pos hA]
    rfl
  by_cases hB : device' ≠ [] ∧ (T.isLiquid && k'.isSome) = false
  · rw [if_pos (Or.inr hB), if_neg hA, if_pos hB]
    rfl
  · rw [if_neg (not_or.2 ⟨hA, hB⟩), if_neg hA, if_neg hB]
    rfl

/-- A hardware signer on Bitcoin compared with itself, or with another built from the same
device: `is_compatible_with` throws. -/
theorem isCompatibleWith_make_hardware :
    ∃ S : Signer (List Char),
      Signer.make Wally.symbolic ⟨false, false⟩ [("name", .str "jade")] [] = .ok S ∧
      ([] : List String).foldlM Signer.setMasterBlindingKey S = .ok S ∧
      S.isCompatibleWith S = .error .exception ∧
      S.isCompatibleWith S =
        if S.device.sameMembers S.device then
          if [("name", Json.str "jade")] ≠ [] ∧ (S.isLiquid && S.masterBlindingKey.isSome) = false ∨
              [("name", Json.str "jade")] ≠ [] ∧ (S.isLiquid && S.masterBlindingKey.isSome) = false
          then throw .exception
          else pure (S.credentials.sameMembers S.credentials)
        else pure false :=
  have hS : Signer.make Wally.symbolic ⟨false, false⟩ [("name", .str "jade")] [] =
      .ok ⟨false, false, [], addDeviceDefaults [("name", .str "jade")], none, none,
        fun _ => none⟩ := rfl
  have hnone : ([] : List String).foldlM Signer.setMasterBlindingKey
      (⟨false, false, [], addDeviceDefaults [("name", .str "jade")], none, none,
        fun _ => none⟩ : Signer (List Char)) = .ok ⟨false, false, [],
          addDeviceDefaults [("name", .str "jade")], none, none, fun _ => none⟩ := rfl
  ⟨_, hS, hnone, rfl, isCompatibleWith_make Wally.symbolic hS hS hnone hnone⟩

/-! ## The capability accessors -/

/-- The capability flags `get_device_json` defaults to `false`, which `j_boolref` reads. -/
def flagCapabilities : List String :=
  ["supports_low_r", "supports_arbitrary_scripts", "supports_host_unblinding",
    "supports_external_blinding"]

/-- The capability levels it defaults to `none`, which `at` reads. -/
def levelCapabilities : List String :=
  ["supports_liquid", "supports_ae_protocol"]

/-- Every capability an accessor reads is present, with the type it reads. -/
def capabilitiesTyped (dev : JsonObj) : Bool :=
  flagCapabilities.all (fun k => (dev.find? k).any Json.isBool) &&
    levelCapabilities.all (fun k => (dev.find? k).any Json.isNum)

/-- No capability that the caller's descriptor holds has a type its accessor does not read. -/
def callerCapabilitiesTyped (device : JsonObj) : Bool :=
  flagCapabilities.all (device.typedOrMissing · Json.isBool) &&
    levelCapabilities.all (device.typedOrMissing · Json.isNum)

/-- The defaults fill what is missing or null, and keep every other value. -/
theorem capabilitiesTyped_addDeviceDefaults (device : JsonObj) :
    capabilitiesTyped (addDeviceDefaults device) = callerCapabilitiesTyped device := by
  simp [capabilitiesTyped, callerCapabilitiesTyped, flagCapabilities, levelCapabilities,
    addDeviceDefaults, JsonObj.find?_addIfMissing_ne, JsonObj.typedOrMissing_addIfMissing_ne,
    JsonObj.any_find?_addIfMissing, Json.isBool, Json.isNum]

/-- `supports_low_r` once the AE level is read: the flag is read only at level `none`. -/
theorem supportsLowR_of_level {S : Signer Key} {n : Int} (h : S.getAeProtocolSupport = .ok n) :
    S.supportsLowR = if n ≠ 0 then .ok false else boolRef S.device "supports_low_r" := by
  by_cases hn : n = 0 <;>
    simp [Signer.supportsLowR, Signer.useAeProtocol, h, hn, bind, Except.bind, pure, Except.pure]

/-- A descriptor with every capability typed answers every accessor. -/
theorem accessors_of_capabilitiesTyped {S : Signer Key} (h : capabilitiesTyped S.device = true) :
    S.supportsLowR.toBool = true ∧ S.supportsArbitraryScripts.toBool = true ∧
    S.getLiquidSupport.toBool = true ∧ S.supportsHostUnblinding.toBool = true ∧
    S.supportsExternalBlinding.toBool = true ∧ S.getAeProtocolSupport.toBool = true := by
  simp only [capabilitiesTyped, flagCapabilities, levelCapabilities, List.all_cons, List.all_nil,
    Bool.and_true, Bool.and_eq_true, ← boolRef_toBool, ← levelRef_toBool] at h
  obtain ⟨⟨hlow, harb, hhost, hext⟩, hliq, hae⟩ := h
  refine ⟨?_, harb, hliq, hhost, hext, hae⟩
  cases hr : S.getAeProtocolSupport with
  | error e =>
    change S.getAeProtocolSupport.toBool = true at hae
    rw [hr] at hae
    cases hae
  | ok n =>
    rw [supportsLowR_of_level hr]
    split_ifs
    · rfl
    · exact hlow

/-- **The capability accessors.** For every signer the constructor builds, the descriptor
holds each capability with the type its accessor reads exactly when it is the Green
backend's, or when the descriptor the caller gave holds no capability of another type:
`json_add_if_missing` fills a capability that is missing or null and keeps any other value.
Every accessor then returns, so a signer built from credentials never throws from one. -/
theorem make_capabilities {net : NetParams} {device credentials : JsonObj} {S : Signer Key}
    (h : Signer.make W net device credentials = .ok S) :
    capabilitiesTyped S.device = (S.isRemote || callerCapabilitiesTyped device) ∧
    (capabilitiesTyped S.device = true →
      S.supportsLowR.toBool = true ∧ S.supportsArbitraryScripts.toBool = true ∧
      S.getLiquidSupport.toBool = true ∧ S.supportsHostUnblinding.toBool = true ∧
      S.supportsExternalBlinding.toBool = true ∧ S.getAeProtocolSupport.toBool = true) := by
  refine ⟨?_, accessors_of_capabilitiesTyped⟩
  obtain ⟨creds, -, hof⟩ := make_eq_ok W h
  have hdev := (ofCredentials_eq_ok W hof).1
  by_cases hd : device = []
  · -- from credentials: a canonical descriptor
    subst hd
    rcases getDeviceJson_eq_ok hdev with ⟨-, -, ⟨-, hw⟩ | ⟨-, -, hw⟩⟩ | ⟨hne, -⟩
    · simp only [Signer.isRemote, Signer.deviceType, hw]
      rfl
    · simp only [Signer.isRemote, Signer.deviceType, hw]
      rfl
    · exact absurd rfl hne
  · -- the caller's descriptor, or the Green backend's in its place
    rcases checkDeviceType_eq_ok (getDeviceJson_of_device hdev hd) with hg | ⟨he, hne⟩
    · simp only [Signer.isRemote, Signer.deviceType, hg]
      rfl
    · simp [Signer.isRemote, Signer.deviceType, he, hne, capabilitiesTyped_addDeviceDefaults]

/-- A hardware descriptor that gives `supports_low_r` as a string. -/
def lowRAsText : JsonObj :=
  [("name", .str "hw"), ("supports_low_r", .str "yes")]

theorem make_capabilities_low_r_as_text :
    ∃ S : Signer (List Char),
      Signer.make Wally.symbolic ⟨false, false⟩ lowRAsText [] = .ok S ∧
      (capabilitiesTyped S.device = (S.isRemote || callerCapabilitiesTyped lowRAsText) ∧
      (capabilitiesTyped S.device = true →
        S.supportsLowR.toBool = true ∧ S.supportsArbitraryScripts.toBool = true ∧
        S.getLiquidSupport.toBool = true ∧ S.supportsHostUnblinding.toBool = true ∧
        S.supportsExternalBlinding.toBool = true ∧ S.getAeProtocolSupport.toBool = true)) :=
  have hS : Signer.make Wally.symbolic ⟨false, false⟩ lowRAsText [] =
      .ok ⟨false, false, [], addDeviceDefaults lowRAsText, none, none, fun _ => none⟩ := rfl
  ⟨_, hS, make_capabilities Wally.symbolic hS⟩

end Gdk
