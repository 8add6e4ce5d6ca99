/-
# Bytes, hex strings and failures

The encodings the signer and the PSBT engine share. `b2h`, `h2b` and their
byte-reversed variants are the hex codecs of `ga_wally.hpp` (not under `src/`);
asset ids travel as `b2h_rev` of their wire bytes, master blinding keys and
scripts as plain `b2h`. The one fact the rest of the development needs is the
round trip `h2b_b2h`: decoding what was encoded gives the bytes back.

`Failure` names the ways a call of the library ends without a result: a
`user_error` with its message, a failed `GDK_RUNTIME_ASSERT` (with the message of
`GDK_RUNTIME_ASSERT_MSG` when there is one), or an exception from a collaborator
(a JSON type error, a `GDK_VERIFY` on a wally call).

The two templates of `utils.hpp` with a body close the module: `pair_and_transform`
(`pairAndTransform_spec`: it pairs consecutive elements, and reads past the end of a range
of odd length) and `set_optional_variable` (`setOptionalVariable_once`: a variable set
through it is written once).
-/
import Mathlib.Data.List.Basic
import Mathlib.Tactic.Ring

namespace Gdk

/-- A byte buffer (`std::vector<unsigned char>`, `byte_span_t`). -/
abbrev Bytes := List UInt8

/-! ## Hex codec -/

/-- The lowercase hex digit of `d < 16`. -/
def hexDigit (d : Nat) : Char :=
  if d < 10 then Char.ofNat (48 + d) else Char.ofNat (87 + d)

/-- The value of a hex digit, either case; `none` for any other character. -/
def hexValue (c : Char) : Option Nat :=
  if '0' ≤ c ∧ c ≤ '9' then some (c.toNat - 48)
  else if 'a' ≤ c ∧ c ≤ 'f' then some (c.toNat - 87)
  else if 'A' ≤ c ∧ c ≤ 'F' then some (c.toNat - 55)
  else none

/-- The two hex digits of one byte, high nibble first. -/
def byteHex (x : UInt8) : List Char :=
  [hexDigit (x.toNat / 16), hexDigit (x.toNat % 16)]

/-- `b2h`: lowercase hex of a byte buffer. -/
def b2h (b : Bytes) : String :=
  ⟨b.flatMap byteHex⟩

/-- Decode pairs of hex digits; `none` on an odd length or a non-hex character. -/
def hexToBytes : List Char → Option Bytes
  | [] => some []
  | [_] => none
  | hi :: lo :: cs => do
    let h ← hexValue hi
    let l ← hexValue lo
    let rest ← hexToBytes cs
    pure (UInt8.ofNat (h * 16 + l) :: rest)

/-- `h2b`: the bytes of a hex string; `none` where the C++ throws. -/
def h2b (s : String) : Option Bytes :=
  hexToBytes s.data

/-- `b2h_rev`: hex of the reversed buffer (asset ids, txids). -/
def b2hRev (b : Bytes) : String :=
  b2h b.reverse

/-- `h2b_rev`, as `j_rbytesref` reads a hex member: decode, then reverse. -/
def h2bRev (s : String) : Option Bytes :=
  (h2b s).map List.reverse

theorem hexValue_hexDigit : ∀ d < 16, hexValue (hexDigit d) = some d := by
  decide

theorem byte_of_nibbles (x : UInt8) :
    UInt8.ofNat (x.toNat / 16 * 16 + x.toNat % 16) = x := by
  apply UInt8.toNat.inj
  rw [Nat.div_add_mod']
  exact UInt8.toNat_ofNat_of_lt (UInt8.toNat_lt_size x)

@[simp] theorem hexToBytes_byteHex (x : UInt8) (cs : List Char) :
    hexToBytes (byteHex x ++ cs) = (hexToBytes cs).map (x :: ·) := by
  have hx : x.toNat < 256 := UInt8.toNat_lt_size x
  rw [byteHex, List.cons_append, List.cons_append, List.nil_append, hexToBytes,
    hexValue_hexDigit _ (by omega), hexValue_hexDigit _ (by omega)]
  cases hexToBytes cs <;> simp [byte_of_nibbles]

/-- **Hex round trip**: `h2b` decodes what `b2h` encodes. -/
theorem h2b_b2h (b : Bytes) : h2b (b2h b) = some b := by
  induction b with
  | nil => rfl
  | cons x b ih =>
    simp only [h2b, b2h, List.flatMap_cons, hexToBytes_byteHex] at ih ⊢
    rw [ih]
    rfl

theorem h2bRev_b2hRev (b : Bytes) : h2bRev (b2hRev b) = some b := by
  simp [h2bRev, b2hRev, h2b_b2h]

/-- The digits `b2h` writes. -/
def lowerHexDigits : List Char :=
  "0123456789abcdef".data

/-- A string `b2h` could have written: lowercase hex digits only. -/
def IsLowerHex (s : String) : Prop :=
  ∀ c ∈ s.data, c ∈ lowerHexDigits

instance (s : String) : Decidable (IsLowerHex s) :=
  inferInstanceAs (Decidable (∀ c ∈ s.data, c ∈ lowerHexDigits))

theorem hexDigit_hexValue :
    ∀ c ∈ lowerHexDigits, ∃ d < 16, hexValue c = some d ∧ hexDigit d = c := by
  decide

/-- `b2h` gives back the lowercase hex that `h2b` decoded. -/
theorem flatMap_byteHex_of_hexToBytes {cs : List Char} {b : Bytes}
    (hl : ∀ c ∈ cs, c ∈ lowerHexDigits) (h : hexToBytes cs = some b) :
    b.flatMap byteHex = cs := by
  induction cs using hexToBytes.induct generalizing b with
  | case1 =>
    cases h
    rfl
  | case2 c => cases h
  | case3 hi lo cs ih =>
    obtain ⟨dh, hdh, hvh, rfl⟩ := hexDigit_hexValue hi (hl _ (by simp))
    obtain ⟨dl, hdl, hvl, rfl⟩ := hexDigit_hexValue lo (hl _ (by simp))
    cases hr : hexToBytes cs with
    | none => simp [hexToBytes, hvh, hvl, hr] at h
    | some rest =>
      simp only [hexToBytes, hvh, hvl, hr, Option.bind_eq_bind, Option.some_bind, Option.pure_def,
        Option.some.injEq] at h
      subst h
      have hx : (UInt8.ofNat (dh * 16 + dl)).toNat = dh * 16 + dl :=
        UInt8.toNat_ofNat_of_lt (by unfold UInt8.size; omega)
      have hdiv : (dh * 16 + dl) / 16 = dh := by omega
      have hmod : (dh * 16 + dl) % 16 = dl := by omega
      rw [List.flatMap_cons, byteHex, hx, hdiv, hmod, ih (fun c hc => hl c (by simp [hc])) hr]
      rfl

/-- **Hex round trip, the other way**: `b2h_rev` gives back the lowercase hex that
`h2b_rev` decoded. -/
theorem b2hRev_of_h2bRev {s : String} {b : Bytes} (hs : IsLowerHex s) (h : h2bRev s = some b) :
    b2hRev b = s := by
  obtain ⟨b', hb', rfl⟩ := Option.map_eq_some'.1 h
  rw [b2hRev, List.reverse_reverse, b2h, flatMap_byteHex_of_hexToBytes hs hb']

@[simp] theorem b2h_nil : b2h [] = "" := rfl

theorem b2h_eq_empty {b : Bytes} : b2h b = "" ↔ b = [] := by
  constructor
  · intro h
    cases b with
    | nil => rfl
    | cons x b => simp [b2h, byteHex, String.ext_iff] at h
  · rintro rfl
    rfl

/-! ## Lists -/

/-- Two lists of one length have an entry at the same places. -/
theorem exists_getElem?_of_length_eq {α β : Type} {l : List α} {l' : List β}
    (hlen : l.length = l'.length) {i : Nat} {x : α} (h : l[i]? = some x) :
    ∃ y, l'[i]? = some y := by
  have hi : i < l'.length := hlen ▸ (List.getElem?_eq_some_iff.1 h).1
  exact ⟨l'[i], List.getElem?_eq_getElem hi⟩

/-! ## Failures -/

/-- How a call ends without a result. -/
inductive Failure where
  /-- `throw user_error(msg)`: surfaced to the caller. -/
  | userError (msg : String)
  /-- A failed `GDK_RUNTIME_ASSERT`, with the message `GDK_RUNTIME_ASSERT_MSG` gives. -/
  | assertion (msg : String)
  /-- An exception from a collaborator: a JSON type error, or a `GDK_VERIFY`. -/
  | exception
  deriving DecidableEq, Repr

@[simp] theorem pure_eq_ok {α : Type} {a b : α} :
    (pure a : Except Failure α) = .ok b ↔ a = b :=
  ⟨fun h => by cases h; rfl, fun h => h ▸ rfl⟩

/-- A `do` step returned a result iff its first action did and the rest, run on that, did. -/
theorem bind_eq_ok {α β : Type} {x : Except Failure α} {f : α → Except Failure β} {b : β} :
    x >>= f = .ok b ↔ ∃ a, x = .ok a ∧ f a = .ok b := by
  cases x <;> simp [bind, Except.bind]

/-- `GDK_RUNTIME_ASSERT(cond)`. -/
def runtimeAssert (cond : Bool) (msg : String) : Except Failure Unit :=
  if cond then pure () else throw (.assertion msg)

@[simp] theorem runtimeAssert_true (msg : String) : runtimeAssert true msg = pure () := rfl

@[simp] theorem runtimeAssert_false (msg : String) :
    runtimeAssert false msg = throw (.assertion msg) := rfl

/-- A passed assertion held. -/
theorem runtimeAssert_eq_ok {cond : Bool} {msg : String} {u : Unit}
    (h : runtimeAssert cond msg = .ok u) : cond = true := by
  cases cond
  · cases h
  · rfl

/-! ## The templates of utils.hpp -/

/-- `pair_and_transform(first, last, d_first, binary_op)` (utils.hpp): `binary_op` of each
pair of consecutive elements, `[0,1,2,3] ↦ [op 0 1, op 2 3]`. On a range of odd length the
loop's second `*next++` reads past `last`: `none`. -/
def pairAndTransform {α β : Type} (op : α → α → β) : List α → Option (List β)
  | [] => some []
  | [_] => none
  | a :: b :: rest => (pairAndTransform op rest).map (op a b :: ·)

/-- **`pair_and_transform` pairs consecutive elements.** It stays within the range exactly
when the range has even length, and then writes `l.length / 2` results, result `i` being
`binary_op(l[2i], l[2i+1])`. -/
theorem pairAndTransform_spec {α β : Type} (op : α → α → β) (l : List α) :
    (pairAndTransform op l).isSome = (l.length % 2 == 0) ∧
    ∀ r, pairAndTransform op l = some r → r.length = l.length / 2 ∧
      ∀ i a b, l[2 * i]? = some a → l[2 * i + 1]? = some b → r[i]? = some (op a b) := by
  induction l using pairAndTransform.induct op with
  | case1 => -- the empty range
    exact ⟨rfl, fun r h => by cases h; exact ⟨by simp, fun i a b ha => by simp at ha⟩⟩
  | case2 x => exact ⟨rfl, fun r h => by cases h⟩ -- one element left: past the end
  | case3 a b rest ih => -- a pair, then the rest
    obtain ⟨hsome, hres⟩ := ih
    refine ⟨?_, fun r h => ?_⟩
    · rw [pairAndTransform, Option.isSome_map', hsome, List.length_cons, List.length_cons]
      congr 1
      omega
    obtain ⟨r', hr', rfl⟩ := Option.map_eq_some'.1 h
    obtain ⟨hlen, hall⟩ := hres r' hr'
    refine ⟨by simp [hlen]; omega, fun i x y hx hy => ?_⟩
    cases i with
    | zero =>
      simp only [Nat.mul_zero, List.getElem?_cons_zero, Option.some.injEq, Nat.zero_add,
        List.getElem?_cons_succ] at hx hy
      subst hx hy
      exact List.getElem?_cons_zero
    | succ i =>
      rw [show 2 * (i + 1) = 2 * i + 1 + 1 by omega, List.getElem?_cons_succ,
        List.getElem?_cons_succ] at hx
      rw [show 2 * (i + 1) + 1 = 2 * i + 1 + 1 + 1 by omega, List.getElem?_cons_succ,
        List.getElem?_cons_succ] at hy
      rw [List.getElem?_cons_succ]
      exact hall i x y hx hy

/-- `set_optional_variable(var, new_value)` (utils.hpp): the variable must be empty or
already hold `new_value`; it is set when empty. Returns whether it was set, and the
variable. -/
def setOptionalVariable {α : Type} [DecidableEq α] (var : Option α) (newValue : α) :
    Except Failure (Bool × Option α) := do
  runtimeAssert (var.isNone || var == some newValue) ""
  if var.isNone then pure (true, some newValue) else pure (false, var)

theorem setOptionalVariable_some {α : Type} [DecidableEq α] (v x : α) :
    setOptionalVariable (some v) x =
      if x = v then .ok (false, some v) else .error (.assertion "") := by
  by_cases h : x = v
  · subst h
    simp [setOptionalVariable]
  · simp [setOptionalVariable, h, beq_eq_false_iff_ne.mpr (Ne.symm h)]
    rfl

theorem foldlM_setOptionalVariable {α : Type} [DecidableEq α] (v : α) :
    ∀ rest : List α, rest.foldlM (fun var x => Prod.snd <$> setOptionalVariable var x) (some v) =
      if rest.all (· = v) then .ok (some v) else .error (.assertion "")
  | [] => rfl
  | x :: rest => by
    rw [List.foldlM_cons, setOptionalVariable_some]
    by_cases h : x = v
    · simpa [h] using foldlM_setOptionalVariable v rest
    · simp only [h, if_false, List.all_cons, decide_False, Bool.false_and]
      rfl

/-- **A variable set through `set_optional_variable` is written once.** Along any sequence
of calls on an empty variable, the first value sticks; the calls pass exactly when every
later value equals it, and a different one fails the assertion. -/
theorem setOptionalVariable_once {α : Type} [DecidableEq α] (v : α) (rest : List α) :
    (v :: rest).foldlM (fun var x => Prod.snd <$> setOptionalVariable var x) none =
      if rest.all (· = v) then .ok (some v) else .error (.assertion "") := by
  rw [List.foldlM_cons]
  exact foldlM_setOptionalVariable v rest

end Gdk
