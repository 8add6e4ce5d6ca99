/-
# The xpub cache of the signer

`signer::get_bip32_xpub`, `signer::has_bip32_xpub`, `signer::cache_ext_key` and
`signer::cache_bip32_xpub` (signer.cpp 264–355), over the part of the signer state
they read: the optional master key and the cache `m_cached_bip32_xpubs`.

`get_bip32_xpub` runs in two phases. Under the lock it searches the cache from the
full path towards the root (`searchCache`), stopping at a cached prefix, at the empty
path, or at a prefix that ends in a hardened index. After the lock is released it
derives what is missing and inserts it with `cache_bip32_xpub`, which takes the lock
again for each insertion. `searchPlan` computes the insertions and the returned xpub
from the search; `getBip32Xpub` is the two phases run back to back. The concurrent
model (`Gdk.Signer.Concurrent`) runs the same phases as separate steps.

Main results:

* `searchCache_spec`: where the search stops, and what it passed on the way;
* `getBip32Xpub_isSome_iff`: `get_bip32_xpub` fails an assertion exactly when
  `has_bip32_xpub` says no, and without a master key it derives from the longest
  cached prefix;
* `getBip32Xpub_cache`: the cache after a call is the old one plus the requested
  path and at most one hardened ancestor, and no entry changes;
* `getBip32Xpub_repeat`: a second request for the same path is answered from the cache.
-/
import Gdk.Basic
import Mathlib.Logic.Function.Basic

namespace Gdk

/-- A BIP32 derivation path (`std::vector<uint32_t>`). -/
abbrev Path := List UInt32

/-- `is_hardened` (ga_wally.hpp, not under `src/`): child indices from `2^31` on are
hardened, and a public key cannot derive them. -/
def isHardened (i : UInt32) : Bool :=
  0x80000000 ≤ i

/-- The BIP32 operations of wally that `get_bip32_xpub` calls. -/
structure Bip32 (Key : Type) where
  /-- `derive(hdkey, path, BIP32_FLAG_KEY_PUBLIC)`: the public child key along `path`. -/
  derivePublic : Key → Path → Key
  /-- `base58check_from_bytes(bip32_key_serialize(key, BIP32_FLAG_KEY_PUBLIC))`. -/
  toXpub : Key → String
  /-- `bip32_public_key_from_bip32_xpub`. -/
  ofXpub : String → Key

/-- A symbolic BIP32 in which a key is the text of the path it was derived along, and an
xpub is that text: enough to run the model on concrete paths. -/
def Bip32.symbolic : Bip32 (List Char) where
  derivePublic k s := k ++ s.flatMap fun i => '/' :: (toString i).data
  toXpub k := ⟨k⟩
  ofXpub x := x.data

/-- `m_cached_bip32_xpubs`: the xpub cached under each path. -/
abbrev Cache := Path → Option String

variable {Key : Type} (B : Bip32 Key)

/-! ## cache_bip32_xpub -/

/-- `signer::cache_bip32_xpub`: emplace under the lock. If the path is already present
its value must equal the new one (`GDK_RUNTIME_ASSERT`): `none` when it does not.
Returns `ret.second`, whether the xpub was inserted (the comment beside it says "whether or
not the xpub was already present", the opposite), and the cache. -/
def cacheBip32Xpub (c : Cache) (path : Path) (xpub : String) : Option (Bool × Cache) :=
  match c path with
  | none => some (true, Function.update c path (some xpub))
  | some x => if x = xpub then some (false, c) else none

theorem cacheBip32Xpub_of_none {c : Cache} {path : Path} (h : c path = none) (xpub : String) :
    cacheBip32Xpub c path xpub = some (true, Function.update c path (some xpub)) := by
  simp [cacheBip32Xpub, h]

theorem cacheBip32Xpub_of_some {c : Cache} {path : Path} {x : String} (h : c path = some x)
    (xpub : String) :
    cacheBip32Xpub c path xpub = if x = xpub then some (false, c) else none := by
  simp [cacheBip32Xpub, h]

/-- The `cache_ext_key` calls of one `get_bip32_xpub`, in order; `none` as soon as one
assertion fails. -/
def cacheEach (c : Cache) : List (Path × String) → Option Cache
  | [] => some c
  | (path, xpub) :: ins => do
    let (_, c') ← cacheBip32Xpub c path xpub
    cacheEach c' ins

@[simp] theorem cacheEach_nil (c : Cache) : cacheEach c [] = some c := rfl

theorem cacheEach_cons_of_none {c : Cache} {path : Path} (h : c path = none) (xpub : String)
    (ins : List (Path × String)) :
    cacheEach c ((path, xpub) :: ins) = cacheEach (Function.update c path (some xpub)) ins := by
  simp [cacheEach, cacheBip32Xpub_of_none h]

/-! ## The locked search -/

/-- Where the search loop of `get_bip32_xpub` ends. -/
inductive Search where
  /-- The full path is cached: its xpub is returned under the lock. -/
  | found (xpub : String)
  /-- `path.take n` is cached; `parent_key` is read from its xpub. -/
  | parent (n : Nat) (xpub : String)
  /-- Stopped at `path.take n`, the root or a hardened prefix, which is not cached. -/
  | stop (n : Nat)
  deriving DecidableEq, Repr

/-- The search meets a cached `parent_path = path.take n`: the full key when the child
path is empty, a parent to derive from otherwise. -/
def Search.hit (path : Path) (n : Nat) (xpub : String) : Search :=
  if path.length ≤ n then .found xpub else .parent n xpub

/-- The search loop of `get_bip32_xpub` (signer.cpp 273–291). The loop's `parent_path`
and `child_path` are `path.take n` and `path.drop n`: each pass moves
`parent_path.back()`, which is `path[n - 1]`, to the front of `child_path`. The loop
starts at `n = path.length`. -/
def searchCache (c : Cache) (path : Path) : Nat → Search
  | 0 => (c (path.take 0)).elim (.stop 0) (Search.hit path 0)
  | n + 1 =>
    match c (path.take (n + 1)) with
    | some xpub => Search.hit path (n + 1) xpub
    | none => if isHardened (path[n]?.getD 0) then .stop (n + 1) else searchCache c path n

/-- The loop of `has_bip32_xpub` (signer.cpp 322–333): the same walk over
`parent_path = path.take n`, answering whether it meets a cached prefix. -/
def hasCached (c : Cache) (path : Path) : Nat → Bool
  | 0 => (c (path.take 0)).isSome
  | n + 1 =>
    match c (path.take (n + 1)) with
    | some _ => true
    | none => if isHardened (path[n]?.getD 0) then false else hasCached c path n

/-- `signer::has_bip32_xpub`: a master key derives anything; otherwise the walk must
meet a cached prefix. -/
def hasBip32Xpub (master : Option Key) (c : Cache) (path : Path) : Bool :=
  master.isSome || hasCached c path path.length

/-! ## After the search -/

/-- signer.cpp 297–302: a parent path that is not empty and not cached is derived from
the master key (`GDK_RUNTIME_ASSERT(m_master_key)`) and cached. Returns the parent key
and the insertion made. -/
def parentStep (master : Option Key) (parentPath : Path) (parentKey : Option Key) :
    Option (Option Key × List (Path × String)) :=
  if parentPath ≠ [] ∧ parentKey.isNone then
    master.map fun k =>
      let pk := B.derivePublic k parentPath
      (some pk, [(parentPath, B.toXpub pk)])
  else some (parentKey, [])

/-- signer.cpp 293–312, after the lock is released, for a search that stopped at
`parent_path = path.take n`: the `cache_ext_key` insertions, in order, and the xpub
returned. `none` when an assertion on a null key fails. -/
def derivePlan (master : Option Key) (path : Path) (n : Nat) (parentKey : Option Key) :
    Option (List (Path × String) × String) :=
  if path = [] then
    -- Master xpub requested: cache_ext_key({}, m_master_key)
    master.map fun k => ([([], B.toXpub k)], B.toXpub k)
  else do
    let (parentKey, ins) ← parentStep B master (path.take n) parentKey
    -- root_key = parent_key ? parent_key : m_master_key; GDK_RUNTIME_ASSERT(root_key)
    let rootKey ← parentKey.or master
    if path.drop n = [] then pure (ins, B.toXpub rootKey)
    else
      let xpub := B.toXpub (B.derivePublic rootKey (path.drop n))
      pure (ins ++ [(path, xpub)], xpub)

/-- The insertions and the result that follow a search. -/
def searchPlan (master : Option Key) (path : Path) : Search → Option (List (Path × String) × String)
  | .found xpub => some ([], xpub)
  | .parent n xpub => derivePlan B master path n (some (B.ofXpub xpub))
  | .stop n => derivePlan B master path n none

/-- `signer::get_bip32_xpub` run without interference: the xpub and the new cache, or
`none` when a `GDK_RUNTIME_ASSERT` fails. -/
def getBip32Xpub (master : Option Key) (c : Cache) (path : Path) : Option (String × Cache) := do
  let (ins, xpub) ← searchPlan B master path (searchCache c path path.length)
  let c' ← cacheEach c ins
  pure (xpub, c')

/-! ## Where the search stops -/

/-- The search passed every prefix of `path` longer than `path.take m`, up to
`path.take n`: none of them was cached, and none of the indices it moved into the
child path is hardened. -/
def Passed (c : Cache) (path : Path) (m n : Nat) : Prop :=
  (∀ k, m < k → k ≤ n → c (path.take k) = none) ∧
  ∀ k, m ≤ k → k < n → isHardened (path[k]?.getD 0) = false

theorem Passed.refl (c : Cache) (path : Path) (m : Nat) : Passed c path m m :=
  ⟨fun _ h h' => absurd h' (by omega), fun _ h h' => absurd h' (by omega)⟩

theorem Passed.succ {c : Cache} {path : Path} {m n : Nat} (h : Passed c path m n)
    (hc : c (path.take (n + 1)) = none) (hh : isHardened (path[n]?.getD 0) = false) :
    Passed c path m (n + 1) :=
  ⟨fun k h1 h2 => if hk : k = n + 1 then hk ▸ hc else h.1 k h1 (by omega),
   fun k h1 h2 => if hk : k = n then hk ▸ hh else h.2 k h1 (by omega)⟩

/-- What the search guarantees about its exit, started at `parent_path = path.take n`. -/
def SearchSpec (c : Cache) (path : Path) (n : Nat) : Search → Prop
  | .found xpub => path.length ≤ n ∧ c (path.take n) = some xpub
  | .parent m xpub =>
    m ≤ n ∧ m < path.length ∧ c (path.take m) = some xpub ∧ Passed c path m n
  | .stop m =>
    m ≤ n ∧ c (path.take m) = none ∧ Passed c path m n ∧
      (m = 0 ∨ isHardened (path[m - 1]?.getD 0) = true)

theorem hit_spec {c : Cache} {path : Path} {n : Nat} {xpub : String}
    (h : c (path.take n) = some xpub) : SearchSpec c path n (Search.hit path n xpub) := by
  unfold Search.hit
  split
  · exact ⟨‹_›, h⟩
  · exact ⟨le_rfl, by omega, h, Passed.refl ..⟩

/-- A cached prefix ends the search where the walk starts. -/
theorem searchCache_of_cached {c : Cache} {p : Path} {x : String} :
    ∀ {n}, c (p.take n) = some x → searchCache c p n = Search.hit p n x
  | 0, h => by simp only [searchCache, h, Option.elim]
  | _ + 1, h => by simp only [searchCache, h]

/-- **The search loop's exit.** -/
theorem searchCache_spec (c : Cache) (path : Path) : ∀ n, SearchSpec c path n (searchCache c path n)
  | 0 => by
    cases h : c [] with
    | none =>
      simp only [searchCache, List.take_zero, h, Option.elim]
      exact ⟨le_rfl, h, Passed.refl c path 0, Or.inl rfl⟩
    | some x => simpa [searchCache, h] using hit_spec (n := 0) (by simpa using h)
  | n + 1 => by
    cases h : c (path.take (n + 1)) with
    | some x => simpa [searchCache, h] using hit_spec h
    | none =>
      cases hh : isHardened (path[n]?.getD 0)
      · have ih := searchCache_spec c path n
        simp only [searchCache, h, hh]
        generalize searchCache c path n = r at ih ⊢
        cases r with
        | found x =>
          obtain ⟨hlen, hx⟩ := ih
          rw [List.take_of_length_le (by omega), ← List.take_of_length_le hlen, hx] at h
          cases h
        | parent m x =>
          obtain ⟨h1, h2, h3, h4⟩ := ih
          exact ⟨by omega, h2, h3, h4.succ h hh⟩
        | stop m =>
          obtain ⟨h1, h2, h3, h4⟩ := ih
          exact ⟨by omega, h2, h3.succ h hh, h4⟩
      · simp only [searchCache, h, hh, if_true]
        exact ⟨le_rfl, h, Passed.refl c path (n + 1), Or.inr hh⟩

/-- Whether the search stopped without meeting a cached prefix. -/
def Search.isStop : Search → Bool
  | .stop _ => true
  | _ => false

@[simp] theorem Search.isStop_hit (path : Path) (n : Nat) (xpub : String) :
    (Search.hit path n xpub).isStop = false := by
  unfold Search.hit
  split <;> rfl

@[simp] theorem Search.isStop_stop (n : Nat) : (Search.stop n).isStop = true := rfl

@[simp] theorem Search.isStop_found (xpub : String) : (Search.found xpub).isStop = false := rfl

@[simp] theorem Search.isStop_parent (n : Nat) (xpub : String) :
    (Search.parent n xpub).isStop = false := rfl

/-- The walks of `has_bip32_xpub` and `get_bip32_xpub` agree. -/
theorem hasCached_eq (c : Cache) (path : Path) :
    ∀ n, hasCached c path n = !(searchCache c path n).isStop
  | 0 => by
    cases h : c [] <;> simp [hasCached, searchCache, h]
  | n + 1 => by
    cases h : c (path.take (n + 1)) with
    | some x => simp [hasCached, searchCache, h]
    | none =>
      cases hh : isHardened (path[n]?.getD 0)
      · simpa [hasCached, searchCache, h, hh] using hasCached_eq c path n
      · simp [hasCached, searchCache, h, hh]

/-! ## The plan after the search -/

section Plan

variable {master : Option Key} {p : Path} {m : Nat}

theorem searchPlan_parent (x : String) (hm : m < p.length) :
    searchPlan B master p (.parent m x) =
      some ([(p, B.toXpub (B.derivePublic (B.ofXpub x) (p.drop m)))],
        B.toXpub (B.derivePublic (B.ofXpub x) (p.drop m))) := by
  have hp : p ≠ [] := by rintro rfl; simp at hm
  have hd : p.drop m ≠ [] := by simpa [List.drop_eq_nil_iff] using hm
  simp [searchPlan, derivePlan, parentStep, hp, hd]

theorem searchPlan_stop_none : searchPlan B none p (.stop m) = none := by
  by_cases hp : p = []
  · simp [searchPlan, derivePlan, hp]
  · by_cases h0 : m = 0 <;> simp [searchPlan, derivePlan, parentStep, hp, h0, List.take_eq_nil_iff]

/-- A stop at the root, or at the full path, derives the requested key straight from
the master key and inserts it alone. -/
theorem searchPlan_stop_single {k : Key} (hk : master = some k) (hm : m ≤ p.length)
    (h : ¬(0 < m ∧ m < p.length)) :
    searchPlan B master p (.stop m) =
      some ([(p, B.toXpub (if p = [] then k else B.derivePublic k p))],
        B.toXpub (if p = [] then k else B.derivePublic k p)) := by
  subst hk
  by_cases hp : p = []
  · subst hp
    simp [searchPlan, derivePlan]
  · rcases Nat.eq_zero_or_pos m with rfl | h0
    · simp [searchPlan, derivePlan, parentStep, hp]
    · obtain rfl : m = p.length := by omega
      simp [searchPlan, derivePlan, parentStep, hp]

/-- A stop strictly inside the path, at a hardened prefix: the prefix is derived from the
master key and cached first, then the requested key from it. -/
theorem searchPlan_stop_double {k : Key} (hk : master = some k) (h0 : 0 < m)
    (hm : m < p.length) :
    searchPlan B master p (.stop m) =
      some ([(p.take m, B.toXpub (B.derivePublic k (p.take m))),
        (p, B.toXpub (B.derivePublic (B.derivePublic k (p.take m)) (p.drop m)))],
        B.toXpub (B.derivePublic (B.derivePublic k (p.take m)) (p.drop m))) := by
  subst hk
  have hp : p ≠ [] := by rintro rfl; simp at hm
  have hd : p.drop m ≠ [] := by simpa [List.drop_eq_nil_iff] using hm
  have ht : p.take m ≠ [] := by simp [List.take_eq_nil_iff, hp]; omega
  simp [searchPlan, derivePlan, parentStep, hp, hd, ht]

end Plan

/-! ## The sequential call -/

section Sequential

variable {master : Option Key} {c : Cache} {p : Path}

/-- Inversion of the sequential call: a result comes from a plan whose insertions all
succeeded. -/
theorem getBip32Xpub_eq_some {r : String} {c' : Cache} :
    getBip32Xpub B master c p = some (r, c') ↔
      ∃ ins, searchPlan B master p (searchCache c p p.length) = some (ins, r) ∧
        cacheEach c ins = some c' := by
  simp only [getBip32Xpub, Option.bind_eq_bind, Option.bind_eq_some, Option.pure_def,
    Option.some.injEq, Prod.mk.injEq, Prod.exists]
  constructor
  · rintro ⟨ins, x, hplan, c'', hc, rfl, rfl⟩
    exact ⟨ins, hplan, hc⟩
  · rintro ⟨ins, hplan, hc⟩
    exact ⟨ins, r, hplan, c', hc, rfl, rfl⟩

/-- The requested path is not cached when the search did not find it. -/
theorem not_cached_of_passed {m : Nat} (hm : m < p.length) (h : Passed c p m p.length) :
    c p = none := by
  simpa using h.1 p.length hm le_rfl

theorem getBip32Xpub_found {x : String} (h : searchCache c p p.length = .found x) :
    getBip32Xpub B master c p = some (x, c) := by
  simp [getBip32Xpub, h, searchPlan]

theorem getBip32Xpub_parent {m : Nat} {x : String} (h : searchCache c p p.length = .parent m x) :
    getBip32Xpub B master c p =
      some (B.toXpub (B.derivePublic (B.ofXpub x) (p.drop m)),
        Function.update c p (some (B.toXpub (B.derivePublic (B.ofXpub x) (p.drop m))))) := by
  have hs := searchCache_spec c p p.length
  rw [h] at hs
  obtain ⟨-, hm, -, hpass⟩ := hs
  simp [getBip32Xpub, h, searchPlan_parent B x hm,
    cacheEach_cons_of_none (not_cached_of_passed hm hpass)]

theorem getBip32Xpub_stop_none {m : Nat} (h : searchCache c p p.length = .stop m) :
    getBip32Xpub B none c p = none := by
  simp [getBip32Xpub, h, searchPlan_stop_none]

theorem getBip32Xpub_stop_single {m : Nat} {k : Key} (hk : master = some k)
    (h : searchCache c p p.length = .stop m) (hm : ¬(0 < m ∧ m < p.length)) :
    getBip32Xpub B master c p =
      some (B.toXpub (if p = [] then k else B.derivePublic k p),
        Function.update c p (some (B.toXpub (if p = [] then k else B.derivePublic k p)))) := by
  have hs := searchCache_spec c p p.length
  rw [h] at hs
  obtain ⟨hle, hnone, hpass, -⟩ := hs
  have hp : c p = none := by
    rcases Nat.lt_or_ge m p.length with hlt | hge
    · exact not_cached_of_passed hlt hpass
    · rwa [List.take_of_length_le hge] at hnone
  simp [getBip32Xpub, h, searchPlan_stop_single B hk hle hm, cacheEach_cons_of_none hp]

theorem getBip32Xpub_stop_double {m : Nat} {k : Key} (hk : master = some k)
    (h : searchCache c p p.length = .stop m) (h0 : 0 < m) (hm : m < p.length) :
    getBip32Xpub B master c p =
      some (B.toXpub (B.derivePublic (B.derivePublic k (p.take m)) (p.drop m)),
        Function.update (Function.update c (p.take m)
            (some (B.toXpub (B.derivePublic k (p.take m)))))
          p (some (B.toXpub (B.derivePublic (B.derivePublic k (p.take m)) (p.drop m))))) := by
  have hs := searchCache_spec c p p.length
  rw [h] at hs
  obtain ⟨-, hnone, hpass, -⟩ := hs
  have hne : p ≠ p.take m := fun he => by
    have := congrArg List.length he
    simp at this
    omega
  have hp : Function.update c (p.take m) (some (B.toXpub (B.derivePublic k (p.take m)))) p = none := by
    rw [Function.update_noteq hne]
    exact not_cached_of_passed hm hpass
  simp [getBip32Xpub, h, searchPlan_stop_double B hk h0 hm, cacheEach_cons_of_none hnone,
    cacheEach_cons_of_none hp]

/-- A call that returns `r` leaves `r` cached under the requested path. -/
theorem getBip32Xpub_self {r : String} {c' : Cache}
    (hget : getBip32Xpub B master c p = some (r, c')) : c' p = some r := by
  have hs := searchCache_spec c p p.length
  generalize hr : searchCache c p p.length = s at hs
  cases s with
  | found x =>
    rw [getBip32Xpub_found B hr, Option.some.injEq, Prod.mk.injEq] at hget
    obtain ⟨rfl, rfl⟩ := hget
    simpa using hs.2
  | parent m x =>
    rw [getBip32Xpub_parent B hr, Option.some.injEq, Prod.mk.injEq] at hget
    obtain ⟨rfl, rfl⟩ := hget
    exact Function.update_same _ _ _
  | stop m =>
    cases master with
    | none => simp [getBip32Xpub_stop_none B hr] at hget
    | some k =>
      by_cases hm : 0 < m ∧ m < p.length
      · rw [getBip32Xpub_stop_double B rfl hr hm.1 hm.2, Option.some.injEq, Prod.mk.injEq] at hget
        obtain ⟨rfl, rfl⟩ := hget
        exact Function.update_same _ _ _
      · rw [getBip32Xpub_stop_single B rfl hr hm, Option.some.injEq, Prod.mk.injEq] at hget
        obtain ⟨rfl, rfl⟩ := hget
        exact Function.update_same _ _ _

end Sequential

/-! ## Failure, and what is derived from where -/

theorem forall_mem_drop_iff (p : Path) (m : Nat) (P : UInt32 → Prop) :
    (∀ i ∈ p.drop m, P i) ↔ ∀ k, m ≤ k → k < p.length → P (p[k]?.getD 0) := by
  constructor
  · intro h k hmk hk
    rw [List.getElem?_eq_getElem hk, Option.getD_some]
    exact h _ (List.mem_drop_iff_getElem.mpr ⟨k - m, by omega, by simp [Nat.add_sub_cancel' hmk]⟩)
  · intro h i hi
    obtain ⟨j, hj, rfl⟩ := List.mem_drop_iff_getElem.mp hi
    have := h (m + j) (by omega) (by omega)
    rwa [List.getElem?_eq_getElem (by omega), Option.getD_some] at this

/-- The search meets a cached prefix exactly when some prefix is cached and no hardened
index follows it. -/
theorem searchCache_isStop_eq_false_iff (c : Cache) (p : Path) :
    (searchCache c p p.length).isStop = false ↔
      ∃ m ≤ p.length, (c (p.take m)).isSome ∧ ∀ i ∈ p.drop m, isHardened i = false := by
  have hs := searchCache_spec c p p.length
  generalize searchCache c p p.length = r at hs ⊢
  cases r with
  | found x =>
    have hx : c p = some x := by simpa using hs.2
    exact iff_of_true rfl ⟨p.length, le_rfl, by simp [hx], by simp⟩
  | parent m x =>
    obtain ⟨-, hm, hx, hpass⟩ := hs
    exact iff_of_true rfl ⟨m, hm.le, by simp [hx], (forall_mem_drop_iff p m _).mpr hpass.2⟩
  | stop m =>
    obtain ⟨hle, hnone, hpass, hroot⟩ := hs
    refine iff_of_false (by simp) ?_
    rintro ⟨m', hm', hsome, hsoft⟩
    rw [forall_mem_drop_iff] at hsoft
    rcases Nat.lt_trichotomy m' m with hlt | rfl | hgt
    · rcases hroot with rfl | hh
      · omega
      · have := hsoft (m - 1) (by omega) (by omega)
        simp [hh] at this
    · simp [hnone] at hsome
    · simp [hpass.1 m' hgt hm'] at hsome

/-- **`get_bip32_xpub` fails an assertion exactly when `has_bip32_xpub` is false.**
`has_bip32_xpub` holds when there is a master key, or when a prefix of the path is
cached and no hardened index follows it. Without a master key, `get_bip32_xpub`
derives from the longest such prefix and from nothing else. -/
theorem getBip32Xpub_isSome_iff (master : Option Key) (c : Cache) (p : Path) :
    (getBip32Xpub B master c p).isSome = hasBip32Xpub master c p ∧
    (hasBip32Xpub master c p = true ↔ master.isSome ∨
      ∃ m ≤ p.length, (c (p.take m)).isSome ∧ ∀ i ∈ p.drop m, isHardened i = false) ∧
    (master = none → ∀ r c', getBip32Xpub B master c p = some (r, c') →
      ∃ m x, m ≤ p.length ∧ c (p.take m) = some x ∧ (∀ i ∈ p.drop m, isHardened i = false) ∧
        (∀ j, m < j → j ≤ p.length → c (p.take j) = none) ∧
        r = if m = p.length then x else B.toXpub (B.derivePublic (B.ofXpub x) (p.drop m))) := by
  have hs := searchCache_spec c p p.length
  refine ⟨?_, ?_, ?_⟩
  · simp only [hasBip32Xpub, hasCached_eq]
    generalize hr : searchCache c p p.length = s at hs
    cases s with
    | found x => simp [getBip32Xpub_found B hr]
    | parent m x => simp [getBip32Xpub_parent B hr]
    | stop m =>
      cases master with
      | none => simp [getBip32Xpub_stop_none B hr]
      | some k =>
        by_cases hm : 0 < m ∧ m < p.length
        · simp [getBip32Xpub_stop_double B rfl hr hm.1 hm.2]
        · simp [getBip32Xpub_stop_single B rfl hr hm]
  · simp only [hasBip32Xpub, hasCached_eq, Bool.or_eq_true, Bool.not_eq_true',
      searchCache_isStop_eq_false_iff, Option.isSome_iff_exists]
  · rintro rfl r c' hget
    generalize hr : searchCache c p p.length = s at hs
    cases s with
    | found x =>
      rw [getBip32Xpub_found B hr, Option.some.injEq, Prod.mk.injEq] at hget
      refine ⟨p.length, x, le_rfl, hs.2, by simp, fun j h1 h2 => absurd h2 (by omega), ?_⟩
      simp [hget.1]
    | parent m x =>
      rw [getBip32Xpub_parent B hr, Option.some.injEq, Prod.mk.injEq] at hget
      obtain ⟨-, hm, hx, hpass⟩ := hs
      refine ⟨m, x, hm.le, hx, (forall_mem_drop_iff p m _).mpr hpass.2, hpass.1, ?_⟩
      simp [hget.1, Nat.ne_of_lt hm]
    | stop m => simp [getBip32Xpub_stop_none B hr] at hget

/-- The walk stopped at `p.take m`: a prefix other than `p` that ends in a hardened
index, with no hardened index after it and nothing cached from it up to `p`. -/
def HardenedStop (c : Cache) (p : Path) (m : Nat) : Prop :=
  0 < m ∧ m < p.length ∧ isHardened (p[m - 1]?.getD 0) = true ∧
    (∀ i ∈ p.drop m, isHardened i = false) ∧ ∀ j, m ≤ j → j ≤ p.length → c (p.take j) = none

theorem hardenedStop_iff {c : Cache} {p : Path} {m : Nat} :
    HardenedStop c p m ↔ searchCache c p p.length = .stop m ∧ 0 < m ∧ m < p.length := by
  have hs := searchCache_spec c p p.length
  constructor
  · rintro ⟨h0, hm, hh, hsoft, hnone⟩
    rw [forall_mem_drop_iff] at hsoft
    refine ⟨?_, h0, hm⟩
    generalize searchCache c p p.length = s at hs
    cases s with
    | found x =>
      obtain ⟨-, hx⟩ := hs
      rw [hnone p.length (by omega) le_rfl] at hx
      cases hx
    | parent m' x =>
      obtain ⟨-, hm', hx, hpass⟩ := hs
      by_cases hlt : m' < m
      · have := hpass.2 (m - 1) (by omega) (by omega)
        simp [hh] at this
      · simp [hnone m' (by omega) hm'.le] at hx
    | stop m' =>
      obtain ⟨hle, -, hpass, hroot⟩ := hs
      rcases Nat.lt_trichotomy m' m with hlt | rfl | hgt
      · have := hpass.2 (m - 1) (by omega) (by omega)
        simp [hh] at this
      · rfl
      · rcases hroot with rfl | hh'
        · omega
        · have := hsoft (m' - 1) (by omega) (by omega)
          simp [hh'] at this
  · rintro ⟨hstop, h0, hm⟩
    rw [hstop] at hs
    obtain ⟨-, hnone, hpass, hroot⟩ := hs
    refine ⟨h0, hm, hroot.resolve_left (by omega), (forall_mem_drop_iff p m _).mpr hpass.2,
      fun j h1 h2 => ?_⟩
    rcases Nat.eq_or_lt_of_le h1 with rfl | hlt
    · exact hnone
    · exact hpass.1 j hlt h2

open Classical in
/-- **The cache after `get_bip32_xpub`.** A call that returns `r` keeps every entry it
found, adds the requested path with `r`, and adds one more entry only where the walk
stopped at a hardened prefix `h ≠ p` without meeting a cached ancestor: the xpub of `h`
derived from the master key. In particular it adds the master path `[]` only when
`p = []`. -/
theorem getBip32Xpub_cache {master : Option Key} {c : Cache} {p : Path} {r : String}
    {c' : Cache} (hget : getBip32Xpub B master c p = some (r, c')) (q : Path) :
    c' q = (c q).or (if q = p then some r else
      if ∃ m, HardenedStop c p m ∧ q = p.take m then
        master.map fun k => B.toXpub (B.derivePublic k q) else none) := by
  have hs := searchCache_spec c p p.length
  generalize hr : searchCache c p p.length = s at hs
  have hstop : ∀ m, HardenedStop c p m → s = .stop m ∧ 0 < m ∧ m < p.length := fun m h =>
    hr ▸ hardenedStop_iff.mp h
  -- a search that does not stop leaves no hardened stop to fill
  have hno : (∀ m, s ≠ .stop m) → ¬∃ m, HardenedStop c p m ∧ q = p.take m :=
    fun hs ⟨m, h, _⟩ => hs m (hstop m h).1
  cases s with
  | found x =>
    rw [getBip32Xpub_found B hr, Option.some.injEq, Prod.mk.injEq] at hget
    obtain ⟨rfl, rfl⟩ := hget
    have hx : c p = some x := by simpa using hs.2
    cases hq : c q with
    | some y => rfl
    | none =>
      have hqp : q ≠ p := by rintro rfl; simp [hx] at hq
      simp [hqp, hno fun _ h => nomatch h]
  | parent m x =>
    rw [getBip32Xpub_parent B hr, Option.some.injEq, Prod.mk.injEq] at hget
    obtain ⟨rfl, rfl⟩ := hget
    have hp := not_cached_of_passed hs.2.1 hs.2.2.2
    by_cases hqp : q = p
    · subst hqp
      simp [hp]
    · simp [hqp, Function.update_noteq hqp, hno fun _ h => nomatch h]
  | stop m =>
    cases master with
    | none => simp [getBip32Xpub_stop_none B hr] at hget
    | some k =>
      by_cases hm : 0 < m ∧ m < p.length
      · rw [getBip32Xpub_stop_double B rfl hr hm.1 hm.2, Option.some.injEq, Prod.mk.injEq] at hget
        obtain ⟨rfl, rfl⟩ := hget
        have hne : p ≠ p.take m := fun he => by
          have := congrArg List.length he
          simp at this
          omega
        have hp := not_cached_of_passed hm.2 hs.2.2.1
        have hh : HardenedStop c p m := hardenedStop_iff.mpr ⟨hr, hm⟩
        by_cases hqp : q = p
        · subst hqp
          simp [hp]
        · by_cases hqm : q = p.take m
          · subst hqm
            rw [Function.update_noteq hne.symm, Function.update_same, hs.2.1, if_neg hne.symm,
              if_pos ⟨m, hh, rfl⟩]
            rfl
          · have : ¬∃ m', HardenedStop c p m' ∧ q = p.take m' := by
              rintro ⟨m', hm', rfl⟩
              obtain ⟨he, -⟩ := hstop m' hm'
              cases he
              exact hqm rfl
            simp [hqp, hqm, Function.update_noteq hqp, Function.update_noteq hqm, this]
      · rw [getBip32Xpub_stop_single B rfl hr hm, Option.some.injEq, Prod.mk.injEq] at hget
        obtain ⟨rfl, rfl⟩ := hget
        by_cases hqp : q = p
        · subst hqp
          have hp : c q = none := by
            rcases Nat.lt_or_ge m q.length with hlt | hge
            · exact not_cached_of_passed hlt hs.2.2.1
            · rw [← List.take_of_length_le hge]; exact hs.2.1
          simp [hp]
        · have : ¬∃ m', HardenedStop c p m' ∧ q = p.take m' := by
            rintro ⟨m', hm', -⟩
            obtain ⟨he, h0, hlt⟩ := hstop m' hm'
            cases he
            exact hm ⟨h0, hlt⟩
          simp [hqp, Function.update_noteq hqp, this]

open Classical in
theorem getBip32Xpub_cache_below_hardened :
    getBip32Xpub Bip32.symbolic (some ['m']) (fun _ => none) [0x80000000, 1] =
      some ("m/2147483648/1", Function.update (Function.update (fun _ => none)
        [0x80000000] (some "m/2147483648")) [0x80000000, 1] (some "m/2147483648/1")) ∧
    ∀ q, Function.update (Function.update (fun _ => none) [0x80000000] (some "m/2147483648"))
        [0x80000000, 1] (some "m/2147483648/1") q =
      (none : Option String).or (if q = [0x80000000, 1] then some "m/2147483648/1" else
        if ∃ m, HardenedStop (fun _ => none) [0x80000000, 1] m ∧ q = [0x80000000, 1].take m then
          (some ['m']).map fun k => Bip32.symbolic.toXpub (Bip32.symbolic.derivePublic k q)
        else none) :=
  ⟨rfl, getBip32Xpub_cache Bip32.symbolic rfl⟩

/-! ## A repeated request -/

/-- **A repeated request is served from the cache.** Once `get_bip32_xpub` has returned
`r` for `p`, a second call for `p` finds `r` under the lock and returns it, deriving and
inserting nothing, with or without a master key. -/
theorem getBip32Xpub_repeat {master master' : Option Key} {c c' : Cache} {p : Path}
    {r : String} (hget : getBip32Xpub B master c p = some (r, c')) :
    getBip32Xpub B master' c' p = some (r, c') := by
  have hs : searchCache c' p p.length = .found r := by
    rw [searchCache_of_cached (by rw [List.take_length]; exact getBip32Xpub_self B hget),
      Search.hit, if_pos le_rfl]
  exact getBip32Xpub_found B hs

theorem getBip32Xpub_repeat_without_master :
    getBip32Xpub Bip32.symbolic (some ['m']) (fun _ => none) [0x80000000, 1] =
      some ("m/2147483648/1", Function.update (Function.update (fun _ => none)
        [0x80000000] (some "m/2147483648")) [0x80000000, 1] (some "m/2147483648/1")) ∧
    getBip32Xpub Bip32.symbolic none (Function.update (Function.update (fun _ => none)
        [0x80000000] (some "m/2147483648")) [0x80000000, 1] (some "m/2147483648/1"))
        [0x80000000, 1] =
      some ("m/2147483648/1", Function.update (Function.update (fun _ => none)
        [0x80000000] (some "m/2147483648")) [0x80000000, 1] (some "m/2147483648/1")) :=
  ⟨rfl, @getBip32Xpub_repeat _ Bip32.symbolic (some ['m']) none (fun _ => none) _ _ _ rfl⟩

end Gdk
