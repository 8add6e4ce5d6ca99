/-
# Concurrent calls on the xpub cache

The signer is shared between threads, and `get_bip32_xpub` holds the lock only for
its search and for each insertion. Between the search and the insertions other calls
run: another `get_bip32_xpub` may insert the same path first, or the session may load
stored xpubs with `cache_bip32_xpub`. The assertion in `cache_bip32_xpub` then compares
what is cached with what this call derived.

A `World` is the cache and the calls in flight; `Step` runs one atomic action of any
call (`threadStep`): a locked search, one locked insertion, or a return. For a signer
whose keys descend from a root `K`, `canonicalXpub B K` is the xpub each path should
have. The invariant `World.Canonical` says every cached entry, every pending insertion
and every returned value is canonical, and no call has failed the assertion.

Main results:

* `xpub_cache_canonical`: from a canonical cache, along every interleaving of any
  calls, the cache stays canonical, no entry changes, the conflict assertion never
  fails, and every returned xpub is the canonical one;
* `getBip32Xpub_solo`: a call running alone is the sequential `getBip32Xpub`: every run
  of it leads on to the sequential result, and stops only there;
* `returned_xpub_cached`: for any BIP32 and any start cache, an xpub that a call has
  returned is cached under its path in every later state;
* `calls_complete`: with a master key every interleaving ends, and when it ends every call
  has returned, with the canonical xpub.
-/
import Gdk.Signer.KeyCache
import Mathlib.Logic.Relation

namespace Gdk

variable {Key : Type} (B : Bip32 Key)

/-- The xpub of `path` below the root key `K`: the public key derived from `K` along
`path`, serialised; for the empty path, `K` itself. -/
def canonicalXpub (K : Key) : Path → String
  | [] => B.toXpub K
  | p@(_ :: _) => B.toXpub (B.derivePublic K p)

theorem canonicalXpub_of_ne_nil (K : Key) {p : Path} (hp : p ≠ []) :
    canonicalXpub B K p = B.toXpub (B.derivePublic K p) := by
  cases p with
  | nil => exact absurd rfl hp
  | cons a l => rfl

/-- What `get_bip32_xpub` relies on from BIP32 for the keys below `K`. -/
structure Bip32.Coherent (K : Key) : Prop where
  /-- Public derivation of a suffix with no hardened index, from any key whose xpub is
  that of `q`, gives the xpub of `q ++ s`. -/
  derive_append : ∀ k q s, B.toXpub k = canonicalXpub B K q → s ≠ [] →
    (∀ i ∈ s, isHardened i = false) → B.toXpub (B.derivePublic k s) = canonicalXpub B K (q ++ s)
  /-- `bip32_public_key_from_bip32_xpub` reads back the key of an xpub below `K`. -/
  toXpub_ofXpub : ∀ q, B.toXpub (B.ofXpub (canonicalXpub B K q)) = canonicalXpub B K q

/-- Every cached xpub is the canonical one. -/
def CacheCanonical (K : Key) (c : Cache) : Prop :=
  ∀ q x, c q = some x → x = canonicalXpub B K q

/-! ## Calls in flight -/

/-- One call in flight on the signer. -/
inductive Thread where
  /-- `get_bip32_xpub(path)`, before its locked search. -/
  | getXpub (path : Path)
  /-- `get_bip32_xpub(path)` after its search: the locked `cache_bip32_xpub` calls still
  to make, then `return xpub`. -/
  | caching (path : Path) (ins : List (Path × String)) (xpub : String)
  /-- `cache_bip32_xpub(path, xpub)` called from elsewhere. -/
  | cacheXpub (path : Path) (xpub : String)
  /-- `get_bip32_xpub(path)` returned `xpub`. -/
  | returned (path : Path) (xpub : String)
  /-- An outside `cache_bip32_xpub` returned whether it inserted. -/
  | cached (inserted : Bool)
  /-- A `GDK_RUNTIME_ASSERT` on a null key failed: no master key to derive from. -/
  | noKey (path : Path)
  /-- The assertion in `cache_bip32_xpub` failed: another xpub is cached under the path. -/
  | conflict
  deriving DecidableEq, Repr

/-- The shared cache and the calls in flight. -/
structure World where
  cache : Cache
  threads : List Thread

/-- The locked search, and what the call does next. -/
def afterSearch (master : Option Key) (c : Cache) (path : Path) : Thread :=
  match searchPlan B master path (searchCache c path path.length) with
  | some (ins, xpub) => .caching path ins xpub
  | none => .noKey path

/-- One atomic action of a call: the locked search, one locked insertion, or the return.
`none` for a call that has ended. -/
def threadStep (master : Option Key) (c : Cache) : Thread → Option (Cache × Thread)
  | .getXpub path => some (c, afterSearch B master c path)
  | .caching path [] xpub => some (c, .returned path xpub)
  | .caching path ((q, x) :: ins) xpub =>
    some (match cacheBip32Xpub c q x with
      | some (_, c') => (c', .caching path ins xpub)
      | none => (c, .conflict))
  | .cacheXpub q x =>
    some (match cacheBip32Xpub c q x with
      | some (b, c') => (c', .cached b)
      | none => (c, .conflict))
  | _ => none

/-- The scheduler runs one action of any call in flight. -/
inductive Step (master : Option Key) : World → World → Prop
  | run {w : World} {i : Nat} {t t' : Thread} {c' : Cache} :
      w.threads[i]? = some t → threadStep B master w.cache t = some (c', t') →
      Step master w ⟨c', w.threads.set i t'⟩

/-- A call made on the signer: `get_bip32_xpub(path)`, or `cache_bip32_xpub` of the
canonical xpub of `path` from elsewhere. -/
inductive Call where
  | getXpub (path : Path)
  | cacheXpub (path : Path)
  deriving DecidableEq, Repr

/-- The call before it runs. -/
def Call.start (K : Key) : Call → Thread
  | .getXpub path => .getXpub path
  | .cacheXpub path => .cacheXpub path (canonicalXpub B K path)

/-! ## The invariant -/

/-- Everything a call holds or returned is canonical, and it has not hit a conflict. -/
def Thread.Canonical (K : Key) : Thread → Prop
  | .caching path ins xpub =>
    (∀ e ∈ ins, e.2 = canonicalXpub B K e.1) ∧ xpub = canonicalXpub B K path
  | .cacheXpub path xpub => xpub = canonicalXpub B K path
  | .returned path xpub => xpub = canonicalXpub B K path
  | .conflict => False
  | _ => True

/-- The invariant of the concurrent model. -/
def World.Canonical (K : Key) (w : World) : Prop :=
  CacheCanonical B K w.cache ∧ ∀ t ∈ w.threads, t.Canonical B K

section Invariant

variable {B} {K : Key}

/-- Inserting a canonical xpub into a canonical cache never fails the assertion, keeps the
cache canonical, and changes no entry. -/
theorem cacheBip32Xpub_canonical {c : Cache} (hc : CacheCanonical B K c) (q : Path) :
    ∃ b c', cacheBip32Xpub c q (canonicalXpub B K q) = some (b, c') ∧
      CacheCanonical B K c' ∧ ∀ q' y, c q' = some y → c' q' = some y := by
  cases hq : c q with
  | none =>
    refine ⟨true, _, cacheBip32Xpub_of_none hq _, fun q' x h => ?_, fun q' y h => ?_⟩
    · by_cases hqq : q' = q
      · subst hqq
        simpa using h.symm
      · rw [Function.update_noteq hqq] at h
        exact hc q' x h
    · have hne : q' ≠ q := by rintro rfl; simp [hq] at h
      rwa [Function.update_noteq hne]
  | some x =>
    refine ⟨false, c, ?_, hc, fun _ _ h => h⟩
    rw [cacheBip32Xpub_of_some hq, if_pos (hc q x hq)]

/-- **The plan of a search is canonical.** From a canonical cache, with the master key
`K` or none, every insertion planned after the search and the returned xpub are the
canonical ones, whichever ancestor the search stopped at. -/
theorem searchPlan_canonical (hB : B.Coherent K) {master : Option Key}
    (hm : master = none ∨ master = some K) {c : Cache} (hc : CacheCanonical B K c) {p : Path}
    {ins : List (Path × String)} {r : String}
    (h : searchPlan B master p (searchCache c p p.length) = some (ins, r)) :
    (∀ e ∈ ins, e.2 = canonicalXpub B K e.1) ∧ r = canonicalXpub B K p := by
  have hs := searchCache_spec c p p.length
  generalize hr : searchCache c p p.length = s at hs h
  cases s with
  | found x =>
    simp only [searchPlan, Option.some.injEq, Prod.mk.injEq] at h
    obtain ⟨rfl, rfl⟩ := h
    exact ⟨by simp, hc p x (by simpa using hs.2)⟩
  | parent m x =>
    obtain ⟨-, hlt, hx, hpass⟩ := hs
    rw [searchPlan_parent B x hlt, Option.some.injEq, Prod.mk.injEq] at h
    obtain ⟨rfl, rfl⟩ := h
    have hd : p.drop m ≠ [] := by simpa [List.drop_eq_nil_iff] using hlt
    have hxp : B.toXpub (B.derivePublic (B.ofXpub x) (p.drop m)) = canonicalXpub B K p := by
      have := hB.derive_append (B.ofXpub x) (p.take m) (p.drop m)
        (by rw [hc _ x hx]; exact hB.toXpub_ofXpub _) hd
        ((forall_mem_drop_iff p m _).mpr hpass.2)
      rwa [List.take_append_drop] at this
    exact ⟨by simp [hxp], hxp⟩
  | stop m =>
    obtain ⟨hle, -, hpass, -⟩ := hs
    rcases hm with rfl | rfl
    · simp [searchPlan_stop_none] at h
    · by_cases hin : 0 < m ∧ m < p.length
      · rw [searchPlan_stop_double B rfl hin.1 hin.2, Option.some.injEq, Prod.mk.injEq] at h
        obtain ⟨rfl, rfl⟩ := h
        have hp : p ≠ [] := by rintro rfl; simp at hin
        have ht : p.take m ≠ [] := by simp [List.take_eq_nil_iff, hp]; omega
        have hd : p.drop m ≠ [] := by simpa [List.drop_eq_nil_iff] using hin.2
        have hpk := (canonicalXpub_of_ne_nil B K ht).symm
        have hxp : B.toXpub (B.derivePublic (B.derivePublic K (p.take m)) (p.drop m)) =
            canonicalXpub B K p := by
          have := hB.derive_append _ (p.take m) (p.drop m) hpk hd
            ((forall_mem_drop_iff p m _).mpr hpass.2)
          rwa [List.take_append_drop] at this
        exact ⟨by simp [hpk, hxp], hxp⟩
      · rw [searchPlan_stop_single B rfl hle hin, Option.some.injEq, Prod.mk.injEq] at h
        obtain ⟨rfl, rfl⟩ := h
        have hxp : B.toXpub (if p = [] then K else B.derivePublic K p) = canonicalXpub B K p := by
          by_cases hp : p = []
          · subst hp; rfl
          · rw [if_neg hp, canonicalXpub_of_ne_nil B K hp]
        exact ⟨by simp [hxp], hxp⟩

/-- **One atomic action keeps the invariant** and changes no cached entry. -/
theorem threadStep_canonical (hB : B.Coherent K) {master : Option Key}
    (hm : master = none ∨ master = some K) {c : Cache} (hc : CacheCanonical B K c) {t : Thread}
    (ht : t.Canonical B K) {c' : Cache} {t' : Thread} (h : threadStep B master c t = some (c', t')) :
    CacheCanonical B K c' ∧ t'.Canonical B K ∧ ∀ q y, c q = some y → c' q = some y := by
  cases t with
  | getXpub p =>
    simp only [threadStep, Option.some.injEq, Prod.mk.injEq] at h
    obtain ⟨rfl, rfl⟩ := h
    refine ⟨hc, ?_, fun _ _ h => h⟩
    unfold afterSearch
    split
    · exact searchPlan_canonical hB hm hc ‹_›
    · trivial
  | caching p ins x =>
    cases ins with
    | nil =>
      simp only [threadStep, Option.some.injEq, Prod.mk.injEq] at h
      obtain ⟨rfl, rfl⟩ := h
      exact ⟨hc, ht.2, fun _ _ h => h⟩
    | cons e ins =>
      obtain ⟨q, y⟩ := e
      obtain ⟨hins, hx⟩ := ht
      obtain rfl : y = canonicalXpub B K q := hins (q, y) (List.mem_cons_self _ _)
      obtain ⟨b, c'', hcache, hc'', hkeep⟩ := cacheBip32Xpub_canonical hc q
      simp only [threadStep, hcache, Option.some.injEq, Prod.mk.injEq] at h
      obtain ⟨rfl, rfl⟩ := h
      exact ⟨hc'', ⟨fun e he => hins e (List.mem_cons_of_mem _ he), hx⟩, hkeep⟩
  | cacheXpub q x =>
    obtain rfl : x = canonicalXpub B K q := ht
    obtain ⟨b, c'', hcache, hc'', hkeep⟩ := cacheBip32Xpub_canonical hc q
    simp only [threadStep, hcache, Option.some.injEq, Prod.mk.injEq] at h
    obtain ⟨rfl, rfl⟩ := h
    exact ⟨hc'', trivial, hkeep⟩
  | returned | cached | noKey | conflict => simp [threadStep] at h

theorem Step.canonical (hB : B.Coherent K) {master : Option Key}
    (hm : master = none ∨ master = some K) {w w' : World} (hw : w.Canonical B K)
    (h : Step B master w w') :
    w'.Canonical B K ∧ ∀ q y, w.cache q = some y → w'.cache q = some y := by
  obtain ⟨hi, hstep⟩ := h
  obtain ⟨hc', ht', hkeep⟩ :=
    threadStep_canonical hB hm hw.1 (hw.2 _ (List.getElem?_mem hi)) hstep
  refine ⟨⟨hc', fun t ht => ?_⟩, hkeep⟩
  rcases List.mem_or_eq_of_mem_set ht with ht | rfl
  · exact hw.2 t ht
  · exact ht'

/-- **Every run keeps the invariant**, and no cached entry is ever removed or changed. -/
theorem reachable_canonical (hB : B.Coherent K) {master : Option Key}
    (hm : master = none ∨ master = some K) {w w' : World} (hw : w.Canonical B K)
    (h : Relation.ReflTransGen (Step B master) w w') :
    w'.Canonical B K ∧ ∀ q y, w.cache q = some y → w'.cache q = some y := by
  induction h with
  | refl => exact ⟨hw, fun _ _ h => h⟩
  | tail _ hstep ih =>
    obtain ⟨h1, h2⟩ := Step.canonical hB hm ih.1 hstep
    exact ⟨h1, fun q y h => h2 q y (ih.2 q y h)⟩

theorem start_canonical {c : Cache} (hc : CacheCanonical B K c) (calls : List Call) :
    World.Canonical B K ⟨c, calls.map (Call.start B K)⟩ := by
  refine ⟨hc, fun t ht => ?_⟩
  obtain ⟨call, -, rfl⟩ := List.mem_map.mp ht
  cases call <;> simp [Call.start, Thread.Canonical]

end Invariant

/-- **Concurrent calls keep the xpub cache canonical.** For a signer whose master key is
`K` or absent, start from a cache holding only canonical xpubs and run any calls of
`get_bip32_xpub` and outside `cache_bip32_xpub` of canonical xpubs, in any interleaving
of their locked steps. In every reachable state the cache holds only canonical xpubs,
every entry of the start is still there, no step removes or changes an entry, the
assertion in `cache_bip32_xpub` has never failed, and every `get_bip32_xpub` that
returned gave the canonical xpub of its path. -/
theorem xpub_cache_canonical {K : Key} (hB : B.Coherent K) {master : Option Key}
    (hm : master = none ∨ master = some K) {c₀ : Cache} (hc₀ : CacheCanonical B K c₀)
    (calls : List Call) {w : World}
    (hrun : Relation.ReflTransGen (Step B master) ⟨c₀, calls.map (Call.start B K)⟩ w) :
    CacheCanonical B K w.cache ∧ (∀ q x, c₀ q = some x → w.cache q = some x) ∧
    (∀ w', Step B master w w' → ∀ q x, w.cache q = some x → w'.cache q = some x) ∧
    Thread.conflict ∉ w.threads ∧
    ∀ p r, Thread.returned p r ∈ w.threads → r = canonicalXpub B K p := by
  obtain ⟨hw, hkeep⟩ := reachable_canonical hB hm (start_canonical hc₀ calls) hrun
  exact ⟨hw.1, hkeep, fun w' hs => (Step.canonical hB hm hw hs).2, fun h => hw.2 _ h,
    fun p r h => hw.2 _ h⟩

theorem canonicalXpub_symbolic (K : List Char) (q : Path) :
    canonicalXpub Bip32.symbolic K q = ⟨K ++ q.flatMap fun i => '/' :: (toString i).data⟩ := by
  cases q with
  | nil => simp [canonicalXpub, Bip32.symbolic]
  | cons a l => rfl

/-- The symbolic BIP32 satisfies what `get_bip32_xpub` relies on. -/
theorem Bip32.symbolic_coherent (K : List Char) : Bip32.symbolic.Coherent K where
  derive_append k q s hk _ _ := by
    rw [canonicalXpub_symbolic] at hk
    have hk' : k = K ++ q.flatMap fun i => '/' :: (toString i).data := congrArg String.data hk
    rw [canonicalXpub_symbolic, List.flatMap_append, ← List.append_assoc, ← hk']
    rfl
  toXpub_ofXpub _ := rfl

theorem xpub_cache_canonical_two_calls :
    CacheCanonical Bip32.symbolic ['m'] (fun _ => none) ∧
    ∃ w, Relation.ReflTransGen (Step Bip32.symbolic (some ['m']))
        ⟨fun _ => none,
          [Call.getXpub [1], Call.cacheXpub [1]].map (Call.start Bip32.symbolic ['m'])⟩ w ∧
      w.threads = [.returned [1] "m/1", .cached true] ∧
      CacheCanonical Bip32.symbolic ['m'] w.cache ∧
      (∀ q x, (fun _ => none : Cache) q = some x → w.cache q = some x) ∧
      (∀ w', Step Bip32.symbolic (some ['m']) w w' →
        ∀ q x, w.cache q = some x → w'.cache q = some x) ∧
      Thread.conflict ∉ w.threads ∧
      ∀ p r, Thread.returned p r ∈ w.threads → r = canonicalXpub Bip32.symbolic ['m'] p :=
  have hc : CacheCanonical Bip32.symbolic ['m'] (fun _ => none) := fun _ _ h => by cases h
  -- the search, the outside insertion, the call's own insertion, the return
  have hrun : Relation.ReflTransGen (Step Bip32.symbolic (some ['m']))
      ⟨fun _ => none,
        [Call.getXpub [1], Call.cacheXpub [1]].map (Call.start Bip32.symbolic ['m'])⟩
      ⟨Function.update (fun _ => none) [1] (some "m/1"), [.returned [1] "m/1", .cached true]⟩ :=
    .head (Step.run (i := 0) rfl rfl) <| .head (Step.run (i := 1) rfl rfl) <|
      .head (Step.run (i := 0) rfl rfl) <| .single (Step.run (i := 0) rfl rfl)
  ⟨hc, _, hrun, rfl, xpub_cache_canonical Bip32.symbolic (Bip32.symbolic_coherent ['m'])
    (Or.inr rfl) hc [.getXpub [1], .cacheXpub [1]] hrun⟩

/-! ## A call running alone is the sequential call

With one call in flight a world has at most one next world, so a lone `get_bip32_xpub`
runs one way only, and it stops where the sequential `getBip32Xpub` says: with the xpub
returned and the cache it leaves, or, when there is no key to derive from, on the failed
assertion with the cache unchanged. -/

/-- The world in which a lone `get_bip32_xpub(p)` ends, as the sequential call describes
it. -/
def sequentialEnd (master : Option Key) (c : Cache) (p : Path) : World :=
  match getBip32Xpub B master c p with
  | some (r, c') => ⟨c', [.returned p r]⟩
  | none => ⟨c, [.noKey p]⟩

theorem cacheEach_reachable {master : Option Key} {p : Path} {r : String} :
    ∀ {c c' : Cache} {ins : List (Path × String)}, cacheEach c ins = some c' →
      Relation.ReflTransGen (Step B master) ⟨c, [.caching p ins r]⟩ ⟨c', [.caching p [] r]⟩
  | c, c', [], h => by
    simp only [cacheEach_nil, Option.some.injEq] at h
    subst h
    exact .refl
  | c, c', (q, x) :: ins, h => by
    simp only [cacheEach, Option.bind_eq_bind, Option.bind_eq_some, Prod.exists] at h
    obtain ⟨b, c'', hcache, hrest⟩ := h
    refine .head (Step.run (i := 0) rfl ?_) (cacheEach_reachable hrest)
    simp [threadStep, hcache]

/-- A lone call reaches the result of the sequential call. -/
theorem getBip32Xpub_reachable {master : Option Key} {c c' : Cache} {p : Path} {r : String}
    (h : getBip32Xpub B master c p = some (r, c')) :
    Relation.ReflTransGen (Step B master) ⟨c, [.getXpub p]⟩ ⟨c', [.returned p r]⟩ := by
  obtain ⟨ins, hplan, hc⟩ := (getBip32Xpub_eq_some B).mp h
  have hsearch : Step B master ⟨c, [.getXpub p]⟩ ⟨c, [.caching p ins r]⟩ :=
    Step.run (i := 0) rfl (by simp [threadStep, afterSearch, hplan])
  have hret : Step B master ⟨c', [.caching p [] r]⟩ ⟨c', [.returned p r]⟩ :=
    Step.run (i := 0) rfl (by simp [threadStep])
  exact (Relation.ReflTransGen.head hsearch (cacheEach_reachable B hc)).tail hret

/-- The sequential call fails only without a master key, when the search stops at an
uncached root or hardened prefix: every plan it makes is inserted. -/
theorem getBip32Xpub_eq_none {master : Option Key} {c : Cache} {p : Path}
    (h : getBip32Xpub B master c p = none) :
    master = none ∧ ∃ m, searchCache c p p.length = .stop m := by
  generalize hs : searchCache c p p.length = s
  cases s with
  | found x => simp [getBip32Xpub_found B hs] at h
  | parent m x => simp [getBip32Xpub_parent B hs] at h
  | stop m =>
    refine ⟨?_, m, rfl⟩
    cases master with
    | none => rfl
    | some k =>
      by_cases hm : 0 < m ∧ m < p.length
      · simp [getBip32Xpub_stop_double B rfl hs hm.1 hm.2] at h
      · simp [getBip32Xpub_stop_single B rfl hs hm] at h

theorem sequentialEnd_reachable (master : Option Key) (c : Cache) (p : Path) :
    Relation.ReflTransGen (Step B master) ⟨c, [.getXpub p]⟩ (sequentialEnd B master c p) := by
  unfold sequentialEnd
  split
  next r c' h => exact getBip32Xpub_reachable B h
  next h =>
    obtain ⟨rfl, m, hs⟩ := getBip32Xpub_eq_none B h
    refine .single (Step.run (i := 0) rfl ?_)
    simp [threadStep, afterSearch, hs, searchPlan_stop_none]

/-- Nothing runs in a world whose calls have all ended. -/
theorem not_step_of_ended {master : Option Key} {w w' : World}
    (h : ∀ t ∈ w.threads, threadStep B master w.cache t = none) : ¬ Step B master w w' := by
  rintro @⟨i, t, t', c', hi, hstep⟩
  rw [h t (List.getElem?_mem hi)] at hstep
  cases hstep

theorem sequentialEnd_stopped (master : Option Key) (c : Cache) (p : Path) (w' : World) :
    ¬ Step B master (sequentialEnd B master c p) w' := by
  apply not_step_of_ended
  unfold sequentialEnd
  split <;> simp [threadStep]

theorem Step.length_threads {master : Option Key} {w w' : World} (h : Step B master w w') :
    w'.threads.length = w.threads.length := by
  obtain @⟨i, t, t', c', -, -⟩ := h
  exact List.length_set ..

theorem ReflTransGen.length_threads {master : Option Key} {a b : World}
    (h : Relation.ReflTransGen (Step B master) a b) : b.threads.length = a.threads.length := by
  induction h with
  | refl => rfl
  | tail _ hs ih => exact (Step.length_threads B hs).trans ih

/-- A world with at most one call in flight has at most one next world. -/
theorem Step.unique_of_solo {master : Option Key} {w w₁ w₂ : World}
    (hw : w.threads.length ≤ 1) (h₁ : Step B master w w₁) (h₂ : Step B master w w₂) :
    w₁ = w₂ := by
  obtain @⟨i, t, t', c', hi, hstep⟩ := h₁
  obtain @⟨j, u, u', d', hj, hstep'⟩ := h₂
  obtain rfl : i = 0 := by have := (List.getElem?_eq_some_iff.1 hi).1; omega
  obtain rfl : j = 0 := by have := (List.getElem?_eq_some_iff.1 hj).1; omega
  obtain rfl : t = u := Option.some.inj (hi.symm.trans hj)
  rw [hstep] at hstep'
  cases hstep'
  rfl

/-- Every world a lone call reaches leads on to any world it reaches where nothing runs. -/
theorem ReflTransGen.solo_reaches_stopped {master : Option Key} {a b e : World}
    (ha : a.threads.length ≤ 1) (hab : Relation.ReflTransGen (Step B master) a b)
    (hae : Relation.ReflTransGen (Step B master) a e) (he : ∀ w, ¬ Step B master e w) :
    Relation.ReflTransGen (Step B master) b e := by
  induction hab with
  | refl => exact hae
  | tail hab hbc ih =>
    have hb := (ReflTransGen.length_threads B hab).trans_le ha
    rcases ih.cases_head with rfl | ⟨b', hb', hb'e⟩
    · exact absurd hbc (he _)
    · rwa [Step.unique_of_solo B hb hbc hb']

/-- **A call running alone is the sequential call.** Every world that a lone
`get_bip32_xpub(p)` reaches leads on to the world the sequential `getBip32Xpub` describes,
and a run that stops, stops there: with the xpub returned and the cache the sequential call
leaves, or, when it fails, on the null-key assertion with the cache unchanged. The
concurrent model and the sequential one agree on a lone call both ways. -/
theorem getBip32Xpub_solo {master : Option Key} {c : Cache} {p : Path} {w : World}
    (hrun : Relation.ReflTransGen (Step B master) ⟨c, [.getXpub p]⟩ w) :
    Relation.ReflTransGen (Step B master) w (sequentialEnd B master c p) ∧
      ((∀ w', ¬ Step B master w w') → w = sequentialEnd B master c p) := by
  have hreach := ReflTransGen.solo_reaches_stopped B (by exact Nat.le_refl 1) hrun
    (sequentialEnd_reachable B master c p) (sequentialEnd_stopped B master c p)
  refine ⟨hreach, fun hw => ?_⟩
  rcases hreach.cases_head with h | ⟨w', hw', -⟩
  · exact h
  · exact absurd hw' (hw _)

theorem getBip32Xpub_solo_below_hardened :
    Relation.ReflTransGen (Step Bip32.symbolic (some ['m']))
      ⟨fun _ => none, [.getXpub [0x80000000, 1]]⟩
      ⟨fun _ => none, [.caching [0x80000000, 1] [([0x80000000], "m/2147483648"),
        ([0x80000000, 1], "m/2147483648/1")] "m/2147483648/1"]⟩ ∧
    sequentialEnd Bip32.symbolic (some ['m']) (fun _ => none) [0x80000000, 1] =
      ⟨Function.update (Function.update (fun _ => none) [0x80000000] (some "m/2147483648"))
        [0x80000000, 1] (some "m/2147483648/1"), [.returned [0x80000000, 1] "m/2147483648/1"]⟩ ∧
    Relation.ReflTransGen (Step Bip32.symbolic (some ['m']))
      ⟨fun _ => none, [.caching [0x80000000, 1] [([0x80000000], "m/2147483648"),
        ([0x80000000, 1], "m/2147483648/1")] "m/2147483648/1"]⟩
      (sequentialEnd Bip32.symbolic (some ['m']) (fun _ => none) [0x80000000, 1]) ∧
    ((∀ w', ¬ Step Bip32.symbolic (some ['m'])
        ⟨fun _ => none, [.caching [0x80000000, 1] [([0x80000000], "m/2147483648"),
          ([0x80000000, 1], "m/2147483648/1")] "m/2147483648/1"]⟩ w') →
      (⟨fun _ => none, [.caching [0x80000000, 1] [([0x80000000], "m/2147483648"),
          ([0x80000000, 1], "m/2147483648/1")] "m/2147483648/1"]⟩ : World) =
        sequentialEnd Bip32.symbolic (some ['m']) (fun _ => none) [0x80000000, 1]) :=
  have hsearch : Relation.ReflTransGen (Step Bip32.symbolic (some ['m']))
      ⟨fun _ => none, [.getXpub [0x80000000, 1]]⟩
      ⟨fun _ => none, [.caching [0x80000000, 1] [([0x80000000], "m/2147483648"),
        ([0x80000000, 1], "m/2147483648/1")] "m/2147483648/1"]⟩ :=
    .single (Step.run (i := 0) rfl rfl)
  ⟨hsearch, rfl, getBip32Xpub_solo Bip32.symbolic hsearch⟩

/-! ## No returned xpub is lost -/

/-- An insertion changes no entry that is there. -/
theorem cacheBip32Xpub_keeps {c c' : Cache} {q : Path} {x : String} {b : Bool}
    (h : cacheBip32Xpub c q x = some (b, c')) {p : Path} {y : String} (hp : c p = some y) :
    c' p = some y := by
  cases hq : c q with
  | none =>
    rw [cacheBip32Xpub_of_none hq, Option.some.injEq, Prod.mk.injEq] at h
    obtain ⟨-, rfl⟩ := h
    have hne : p ≠ q := by rintro rfl; simp [hq] at hp
    rwa [Function.update_noteq hne]
  | some z =>
    rw [cacheBip32Xpub_of_some hq] at h
    split_ifs at h
    cases h
    exact hp

/-- After an insertion that passed its assertion, the path holds the inserted xpub. -/
theorem cacheBip32Xpub_self {c c' : Cache} {q : Path} {x : String} {b : Bool}
    (h : cacheBip32Xpub c q x = some (b, c')) : c' q = some x := by
  cases hq : c q with
  | none =>
    rw [cacheBip32Xpub_of_none hq, Option.some.injEq, Prod.mk.injEq] at h
    obtain ⟨-, rfl⟩ := h
    exact Function.update_same _ _ _
  | some z =>
    rw [cacheBip32Xpub_of_some hq] at h
    split_ifs at h with hz
    cases h
    rw [hq, hz]

/-- What a call has returned, or will return, is cached under its path, or is still to be
inserted there. -/
def Thread.Cached (c : Cache) : Thread → Prop
  | .caching p ins x => (p, x) ∈ ins ∨ c p = some x
  | .returned p r => c p = some r
  | _ => True

theorem Thread.Cached.mono {c c' : Cache} (hc : ∀ q y, c q = some y → c' q = some y) :
    ∀ {t : Thread}, t.Cached c → t.Cached c'
  | .caching _ _ _, h => h.imp_right (hc _ _)
  | .returned _ _, h => hc _ _ h
  | .getXpub _, _ | .cacheXpub _ _, _ | .cached _, _ | .noKey _, _ | .conflict, _ => trivial

/-- Every plan inserts the requested path with the xpub it returns, unless it returns the
cached one. -/
theorem searchPlan_mem {master : Option Key} {c : Cache} {p : Path} {ins : List (Path × String)}
    {r : String} (h : searchPlan B master p (searchCache c p p.length) = some (ins, r)) :
    (p, r) ∈ ins ∨ c p = some r := by
  have hs := searchCache_spec c p p.length
  generalize hr : searchCache c p p.length = s at hs h
  cases s with
  | found x =>
    simp only [searchPlan, Option.some.injEq, Prod.mk.injEq] at h
    obtain ⟨-, rfl⟩ := h
    exact .inr (by simpa using hs.2)
  | parent m x =>
    rw [searchPlan_parent B x hs.2.1, Option.some.injEq, Prod.mk.injEq] at h
    obtain ⟨rfl, rfl⟩ := h
    exact .inl (List.mem_singleton_self _)
  | stop m =>
    cases master with
    | none => simp [searchPlan_stop_none] at h
    | some k =>
      by_cases hin : 0 < m ∧ m < p.length
      · rw [searchPlan_stop_double B rfl hin.1 hin.2, Option.some.injEq, Prod.mk.injEq] at h
        obtain ⟨rfl, rfl⟩ := h
        exact .inl (by simp)
      · rw [searchPlan_stop_single B rfl hs.1 hin, Option.some.injEq, Prod.mk.injEq] at h
        obtain ⟨rfl, rfl⟩ := h
        exact .inl (List.mem_singleton_self _)

/-- One atomic action keeps every entry, and keeps its own call's result cached. -/
theorem threadStep_cached {master : Option Key} {c c' : Cache} {t t' : Thread}
    (h : threadStep B master c t = some (c', t')) (ht : t.Cached c) :
    (∀ q y, c q = some y → c' q = some y) ∧ t'.Cached c' := by
  cases t with
  | getXpub p =>
    cases h
    refine ⟨fun _ _ h => h, ?_⟩
    unfold afterSearch
    split
    · exact searchPlan_mem B ‹_›
    · trivial
  | caching p ins x =>
    cases ins with
    | nil =>
      cases h
      exact ⟨fun _ _ h => h, ht.resolve_left (List.not_mem_nil _)⟩
    | cons e ins =>
      obtain ⟨q, y⟩ := e
      simp only [threadStep, Option.some.injEq] at h
      split at h
      next b c'' hcache =>
        cases h
        refine ⟨fun _ _ => cacheBip32Xpub_keeps hcache, ?_⟩
        rcases ht with hmem | hp
        · rcases List.mem_cons.1 hmem with he | hmem
          · obtain ⟨rfl, rfl⟩ := Prod.mk.inj he
            exact .inr (cacheBip32Xpub_self hcache)
          · exact .inl hmem
        · exact .inr (cacheBip32Xpub_keeps hcache hp)
      next =>
        cases h
        exact ⟨fun _ _ h => h, trivial⟩
  | cacheXpub q x =>
    simp only [threadStep, Option.some.injEq] at h
    split at h <;> cases h
    · exact ⟨fun _ _ => cacheBip32Xpub_keeps ‹_›, trivial⟩
    · exact ⟨fun _ _ h => h, trivial⟩
  | returned | cached | noKey | conflict => cases h

/-- Every call's result is cached, or still to be inserted. -/
def World.Cached (w : World) : Prop :=
  ∀ t ∈ w.threads, t.Cached w.cache

theorem Step.cached {master : Option Key} {w w' : World} (hw : w.Cached) (h : Step B master w w') :
    w'.Cached := by
  obtain @⟨i, t, t', c', hi, hstep⟩ := h
  obtain ⟨hkeep, ht'⟩ := threadStep_cached B hstep (hw t (List.getElem?_mem hi))
  intro u hu
  rcases List.mem_or_eq_of_mem_set hu with hu | rfl
  · exact (hw u hu).mono hkeep
  · exact ht'

/-- Along every run from the calls' start, every call's result is cached or still to be
inserted. -/
theorem reachable_cached (K : Key) {master : Option Key} (c₀ : Cache) (calls : List Call)
    {w : World}
    (hrun : Relation.ReflTransGen (Step B master) ⟨c₀, calls.map (Call.start B K)⟩ w) :
    w.Cached := by
  induction hrun with
  | refl =>
    intro t ht
    obtain ⟨call, -, rfl⟩ := List.mem_map.1 ht
    cases call <;> trivial
  | tail _ hstep ih => exact Step.cached B ih hstep

/-- **No returned xpub is lost.** From any cache, along every interleaving of any calls of
`get_bip32_xpub` and outside `cache_bip32_xpub`, and for any BIP32: every
`get_bip32_xpub` that has returned `r` for `p` finds `r` cached under `p`, then and in
every later state. An insertion never changes an entry, and a call whose insertion meets
another xpub ends in the assertion instead of returning. -/
theorem returned_xpub_cached (K : Key) {master : Option Key} (c₀ : Cache) (calls : List Call)
    {w : World}
    (hrun : Relation.ReflTransGen (Step B master) ⟨c₀, calls.map (Call.start B K)⟩ w) :
    ∀ p r, Thread.returned p r ∈ w.threads → w.cache p = some r :=
  fun _ _ h => reachable_cached B K c₀ calls hrun _ h

theorem returned_xpub_cached_after_outside_insert :
    Relation.ReflTransGen (Step Bip32.symbolic (some ['m']))
      ⟨fun _ => none,
        [Call.getXpub [1], Call.cacheXpub [1]].map (Call.start Bip32.symbolic ['m'])⟩
      ⟨Function.update (fun _ => none) [1] (some "m/1"),
        [.returned [1] "m/1", .cached true]⟩ ∧
    ∀ p r, Thread.returned p r ∈ [Thread.returned [1] "m/1", .cached true] →
      Function.update (fun _ => none) [1] (some "m/1") p = some r :=
  have hrun : Relation.ReflTransGen (Step Bip32.symbolic (some ['m']))
      ⟨fun _ => none,
        [Call.getXpub [1], Call.cacheXpub [1]].map (Call.start Bip32.symbolic ['m'])⟩
      ⟨Function.update (fun _ => none) [1] (some "m/1"),
        [.returned [1] "m/1", .cached true]⟩ :=
    .head (Step.run (i := 0) rfl rfl) <| .head (Step.run (i := 1) rfl rfl) <|
      .head (Step.run (i := 0) rfl rfl) <| .single (Step.run (i := 0) rfl rfl)
  ⟨hrun, returned_xpub_cached Bip32.symbolic ['m'] _ _ hrun⟩

/-! ## Every call completes

Each atomic action uses up one of the at most four actions of a `get_bip32_xpub` or the
one of an outside `cache_bip32_xpub`, so no run is infinite. With a master key the search
always plans its insertions, so no call fails on a null key, and the invariant of
`xpub_cache_canonical` rules out the failed comparison: when a run stops, every call has
returned. -/

/-- The atomic actions a call has left: for `get_bip32_xpub`, the search, at most two
insertions and the return; for an outside `cache_bip32_xpub`, its insertion. -/
def Thread.pending : Thread → Nat
  | .getXpub _ => 4
  | .caching _ ins _ => ins.length + 1
  | .cacheXpub _ _ => 1
  | _ => 0

/-- The atomic actions left to all calls in flight. -/
def World.pending (w : World) : Nat :=
  (w.threads.map Thread.pending).sum

theorem parentStep_length {master : Option Key} {pp : Path} {pk k : Option Key}
    {ins : List (Path × String)} (h : parentStep B master pp pk = some (k, ins)) :
    ins.length ≤ 1 := by
  unfold parentStep at h
  split_ifs at h
  · obtain ⟨_, -, h⟩ := Option.map_eq_some'.1 h
    cases h
    simp
  · cases h
    simp

/-- A plan inserts at most two entries: a hardened ancestor and the requested path. -/
theorem derivePlan_length {master : Option Key} {p : Path} {n : Nat} {pk : Option Key}
    {ins : List (Path × String)} {r : String} (h : derivePlan B master p n pk = some (ins, r)) :
    ins.length ≤ 2 := by
  unfold derivePlan at h
  by_cases hp : p = []
  · rw [if_pos hp] at h
    obtain ⟨_, -, h⟩ := Option.map_eq_some'.1 h
    cases h
    simp
  · rw [if_neg hp] at h
    simp only [Option.bind_eq_bind, Option.bind_eq_some] at h
    obtain ⟨⟨k, ins'⟩, hstep, rk, -, h⟩ := h
    have := parentStep_length B hstep
    split_ifs at h <;>
      simp only [Option.pure_def, Option.some.injEq, Prod.mk.injEq] at h <;>
      obtain ⟨rfl, -⟩ := h <;> simp <;> omega

theorem afterSearch_pending (master : Option Key) (c : Cache) (p : Path) :
    (afterSearch B master c p).pending < 4 := by
  unfold afterSearch
  split
  next ins r h =>
    have : ins.length ≤ 2 := by
      revert h
      cases searchCache c p p.length with
      | found x => intro h; cases h; simp
      | parent m x => exact derivePlan_length B
      | stop m => exact derivePlan_length B
    simp only [Thread.pending]
    omega
  next => simp [Thread.pending]

/-- **Each atomic action uses up one of the call's actions.** -/
theorem threadStep_pending {master : Option Key} {c c' : Cache} {t t' : Thread}
    (h : threadStep B master c t = some (c', t')) : t'.pending < t.pending := by
  cases t with
  | getXpub p =>
    cases h
    exact afterSearch_pending B master c p
  | caching p ins x =>
    cases ins with
    | nil => cases h; exact Nat.zero_lt_one
    | cons e ins =>
      simp only [threadStep, Option.some.injEq] at h
      split at h <;> cases h
      · exact Nat.lt_succ_self _ -- one insertion made
      · exact Nat.succ_pos _ -- the assertion failed
  | cacheXpub q x =>
    simp only [threadStep, Option.some.injEq] at h
    split at h <;> cases h <;> exact Nat.zero_lt_one
  | returned | cached | noKey | conflict => cases h

/-- A thread that has actions left can take one. -/
theorem threadStep_isSome (master : Option Key) (c : Cache) {t : Thread} (h : 0 < t.pending) :
    ∃ c' t', threadStep B master c t = some (c', t') := by
  cases t with
  | getXpub p => exact ⟨_, _, rfl⟩
  | caching p ins x =>
    cases ins with
    | nil => exact ⟨_, _, rfl⟩
    | cons e ins => exact ⟨_, _, rfl⟩
  | cacheXpub q x => exact ⟨_, _, rfl⟩
  | returned | cached | noKey | conflict => cases h

theorem sum_pending_set {l : List Thread} {i : Nat} {t : Thread} (h : l[i]? = some t)
    (t' : Thread) :
    ((l.set i t').map Thread.pending).sum + t.pending =
      (l.map Thread.pending).sum + t'.pending := by
  induction l generalizing i with
  | nil => cases h
  | cons u l ih =>
    cases i with
    | zero =>
      obtain rfl := Option.some.inj (List.getElem?_cons_zero.symm.trans h)
      simp only [List.set_cons_zero, List.map_cons, List.sum_cons]
      omega
    | succ i =>
      have := ih (List.getElem?_cons_succ.symm.trans h)
      simp only [List.set_cons_succ, List.map_cons, List.sum_cons]
      omega

theorem Step.pending_lt {master : Option Key} {w w' : World} (h : Step B master w w') :
    w'.pending < w.pending := by
  obtain @⟨i, t, t', c', hi, hstep⟩ := h
  have := sum_pending_set hi t'
  have := threadStep_pending B hstep
  simp only [World.pending]
  omega

/-- No run of the concurrent model is infinite. -/
theorem step_wellFounded (master : Option Key) : WellFounded (fun w' w => Step B master w w') :=
  Subrelation.wf (fun h => Step.pending_lt B h) (measure World.pending).wf

/-- In a world where nothing runs, every call has used up its actions. -/
theorem pending_eq_zero_of_stopped {master : Option Key} {w : World}
    (hstop : ∀ w', ¬ Step B master w w') {i : Nat} {t : Thread} (hi : w.threads[i]? = some t) :
    t.pending = 0 :=
  Nat.eq_zero_of_not_pos fun hpos =>
    let ⟨_, _, hstep⟩ := threadStep_isSome B master w.cache hpos
    hstop _ (Step.run hi hstep)

/-- With a master key the search always plans its insertions. -/
theorem afterSearch_of_master (k : Key) (c : Cache) (p : Path) :
    ∃ ins x, afterSearch B (some k) c p = .caching p ins x := by
  cases h : getBip32Xpub B (some k) c p with
  | none => exact absurd (getBip32Xpub_eq_none B h).1 (Option.some_ne_none k)
  | some rc =>
    obtain ⟨ins, hplan, -⟩ := (getBip32Xpub_eq_some B).1 h
    exact ⟨ins, rc.1, by simp [afterSearch, hplan]⟩

/-- What a call has become along a run with a master key: the same call at a later point,
or the failed comparison of `cache_bip32_xpub`. -/
def Call.Becomes : Call → Thread → Prop
  | .getXpub p, .getXpub q => q = p
  | .getXpub p, .caching q _ _ => q = p
  | .getXpub p, .returned q _ => q = p
  | .cacheXpub p, .cacheXpub q _ => q = p
  | .cacheXpub _, .cached _ => True
  | _, .conflict => True
  | _, _ => False

theorem threadStep_becomes {k : Key} {c c' : Cache} {t t' : Thread} {call : Call}
    (h : threadStep B (some k) c t = some (c', t')) (ht : call.Becomes t) : call.Becomes t' := by
  cases t with
  | getXpub q =>
    cases h
    obtain ⟨ins, x, hs⟩ := afterSearch_of_master B k c q
    rw [hs]
    cases call <;> simp_all [Call.Becomes]
  | caching q ins x =>
    cases ins with
    | nil => cases h; cases call <;> simp_all [Call.Becomes]
    | cons e ins =>
      simp only [threadStep, Option.some.injEq] at h
      split at h <;> cases h <;> cases call <;> simp_all [Call.Becomes]
  | cacheXpub q x =>
    simp only [threadStep, Option.some.injEq] at h
    split at h <;> cases h <;> cases call <;> simp_all [Call.Becomes]
  | returned | cached | noKey | conflict => cases h

/-- Each call in flight is what the call in its place has become. -/
def World.Follows (calls : List Call) (w : World) : Prop :=
  w.threads.length = calls.length ∧
    ∀ (i : Nat) call t, calls[i]? = some call → w.threads[i]? = some t → call.Becomes t

theorem Step.follows {k : Key} {calls : List Call} {w w' : World} (hw : w.Follows calls)
    (h : Step B (some k) w w') : w'.Follows calls := by
  obtain @⟨i, t, t', c', hi, hstep⟩ := h
  refine ⟨(List.length_set ..).trans hw.1, fun j call u hj hu => ?_⟩
  by_cases hij : i = j
  · subst hij
    rw [List.getElem?_set_self (List.getElem?_eq_some_iff.1 hi).1] at hu
    cases hu
    exact threadStep_becomes B hstep (hw.2 i call t hj hi)
  · rw [List.getElem?_set_ne hij] at hu
    exact hw.2 j call u hj hu

theorem reachable_follows (K : Key) {c₀ : Cache} {calls : List Call} {w : World}
    (hrun : Relation.ReflTransGen (Step B (some K)) ⟨c₀, calls.map (Call.start B K)⟩ w) :
    w.Follows calls := by
  induction hrun with
  | refl =>
    refine ⟨List.length_map .., fun i call t hi ht => ?_⟩
    rw [List.getElem?_map, hi] at ht
    cases ht
    cases call <;> rfl
  | tail _ hstep ih => exact Step.follows B ih hstep

/-- **Every call completes.** For a signer with master key `K`, start from a cache holding
only canonical xpubs and run any calls of `get_bip32_xpub` and outside `cache_bip32_xpub`
of canonical xpubs, in any interleaving. No run is infinite, and when a run stops every
`get_bip32_xpub(p)` has returned the canonical xpub of `p`, which is cached, and every
outside `cache_bip32_xpub` has made its insertion: no call is left waiting, fails on a null
key, or fails the comparison. -/
theorem calls_complete {K : Key} (hB : B.Coherent K) {c₀ : Cache} (hc₀ : CacheCanonical B K c₀)
    (calls : List Call) :
    WellFounded (fun w' w => Step B (some K) w w') ∧
    ∀ w, Relation.ReflTransGen (Step B (some K)) ⟨c₀, calls.map (Call.start B K)⟩ w →
      (∀ w', ¬ Step B (some K) w w') →
      (∀ (i : Nat) p, calls[i]? = some (.getXpub p) →
        w.threads[i]? = some (.returned p (canonicalXpub B K p)) ∧
          w.cache p = some (canonicalXpub B K p)) ∧
      ∀ (i : Nat) p, calls[i]? = some (.cacheXpub p) → ∃ b, w.threads[i]? = some (.cached b) := by
  refine ⟨step_wellFounded B (some K), fun w hrun hstop => ?_⟩
  have hcan := (reachable_canonical hB (.inr rfl) (start_canonical hc₀ calls) hrun).1
  have hfollow := reachable_follows B K hrun
  -- the call in place `i` has ended, and not on the failed comparison
  have hend : ∀ (i : Nat) call, calls[i]? = some call → ∃ t, w.threads[i]? = some t ∧
      call.Becomes t ∧ t.pending = 0 ∧ t ≠ .conflict := fun i call hi => by
    obtain ⟨t, ht⟩ := exists_getElem?_of_length_eq hfollow.1.symm hi
    exact ⟨t, ht, hfollow.2 i call t hi ht, pending_eq_zero_of_stopped B hstop ht,
      fun hc => by subst hc; exact hcan.2 _ (List.getElem?_mem ht)⟩
  refine ⟨fun i p hi => ?_, fun i p hi => ?_⟩
  · obtain ⟨t, ht, hb, hdone, hne⟩ := hend i _ hi
    cases t with
    | returned q x =>
      obtain rfl : q = p := hb
      have hx : x = canonicalXpub B K q := hcan.2 _ (List.getElem?_mem ht)
      subst hx
      exact ⟨ht, reachable_cached B K c₀ calls hrun _ (List.getElem?_mem ht)⟩
    | conflict => exact absurd rfl hne
    | getXpub | caching | cacheXpub => cases hdone
    | cached | noKey => cases hb
  · obtain ⟨t, ht, hb, hdone, hne⟩ := hend i _ hi
    cases t with
    | cached b => exact ⟨b, ht⟩
    | conflict => exact absurd rfl hne
    | getXpub | caching | cacheXpub => cases hdone
    | returned | noKey => cases hb

theorem calls_complete_two_calls :
    Bip32.symbolic.Coherent ['m'] ∧ CacheCanonical Bip32.symbolic ['m'] (fun _ => none) ∧
    WellFounded (fun w' w => Step Bip32.symbolic (some ['m']) w w') ∧
    ∀ w, Relation.ReflTransGen (Step Bip32.symbolic (some ['m']))
        ⟨fun _ => none,
          [Call.getXpub [1], Call.cacheXpub [1]].map (Call.start Bip32.symbolic ['m'])⟩ w →
      (∀ w', ¬ Step Bip32.symbolic (some ['m']) w w') →
      (∀ (i : Nat) p, [Call.getXpub [1], Call.cacheXpub [1]][i]? = some (.getXpub p) →
        w.threads[i]? = some (.returned p (canonicalXpub Bip32.symbolic ['m'] p)) ∧
          w.cache p = some (canonicalXpub Bip32.symbolic ['m'] p)) ∧
      ∀ (i : Nat) p, [Call.getXpub [1], Call.cacheXpub [1]][i]? = some (.cacheXpub p) →
        ∃ b, w.threads[i]? = some (.cached b) :=
  have hc : CacheCanonical Bip32.symbolic ['m'] (fun _ => none) := fun _ _ h => by cases h
  ⟨Bip32.symbolic_coherent ['m'], hc,
    calls_complete Bip32.symbolic (Bip32.symbolic_coherent ['m']) hc _⟩

end Gdk
