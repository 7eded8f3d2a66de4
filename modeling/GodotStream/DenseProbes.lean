import GodotStream.DenseBuckets

/-!
# Searching the dense hash table

In a well-formed table the buckets are a Robin Hood layout of the indices of the
entries, some bucket is empty, and the entries have distinct keys. A search follows
its probe from the bucket of a hash. As long as the table holds at most `sizeLimit`
entries, no distance outgrows its 24 bits before the search ends.
-/

namespace GodotStream

open Ring RobinHood

universe u v

namespace DenseTable

variable {κ : Type u} {ν : Type v} {mixedHash : κ → BitVec 64} {table : DenseTable κ ν}

/-- The hash of the key at an index. -/
def hashAt (mixedHash : κ → BitVec 64) (table : DenseTable κ ν) (valueIdx : ℕ) : BitVec 64 :=
  ((table.values[valueIdx]?).map fun entry => mixedHash entry.1).getD 0

/-- The bucket named by the hash of the key at an index. -/
def homeAt (mixedHash : κ → BitVec 64) (table : DenseTable κ ν) (valueIdx : ℕ) : ℕ :=
  table.bucketIdxFromHash (table.hashAt mixedHash valueIdx)

/-- The fingerprint in a hash. -/
def fingerprint (hash : BitVec 64) : ℕ :=
  hash.toNat % 256

/-- The largest number of entries for which every distance fits. -/
def sizeLimit : ℕ :=
  2 ^ 24 - 4

/-- The buckets hold the indices of a set. -/
structure Layout (mixedHash : κ → BitVec 64) (stored : Finset ℕ) (table : DenseTable κ ν) :
    Prop where
  shiftsLow : 32 < table.shifts
  shiftsHigh : table.shifts ≤ 62
  count : table.buckets.length = 2 ^ (64 - table.shifts)
  valid : Valid table.buckets.length 256 (table.homeAt mixedHash)
    (fun valueIdx => fingerprint (table.hashAt mixedHash valueIdx)) stored (slots table.buckets)
  spare : stored.card < table.buckets.length

/-- A table between two operations. -/
structure WellFormed (mixedHash : κ → BitVec 64) (table : DenseTable κ ν) : Prop where
  distinct : (table.values.map Prod.fst).Nodup
  capacity : table.maxBucketCapacity = bucketCapacity table.buckets.length
  roomy : table.values.length ≤ table.maxBucketCapacity
  layout : table.Layout mixedHash (Finset.range table.values.length)

theorem distAndFingerprintFromHash_eq (hash : BitVec 64) :
    distAndFingerprintFromHash hash = weigh 256 (fingerprint hash) 0 := by
  have low : hash.toNat % 2 ^ 32 &&& 255 = hash.toNat % 256 := by
    rw [show 255 = 2 ^ 8 - 1 from rfl, Nat.and_two_pow_sub_one_eq_mod,
      Nat.mod_mod_of_dvd _ (by decide)]
  have disjoint : 256 ||| hash.toNat % 256 = 256 * 1 + hash.toNat % 256 :=
    (Nat.two_pow_add_eq_or_of_lt (i := 8) (Nat.mod_lt _ (by decide)) 1).symm
  rw [distAndFingerprintFromHash, low, disjoint, weigh_zero, fingerprint]

theorem fingerprint_lt (hash : BitVec 64) : fingerprint hash < 256 :=
  Nat.mod_lt _ (by decide)

theorem Layout.count_le {stored : Finset ℕ} (layout : table.Layout mixedHash stored) :
    table.buckets.length ≤ 2 ^ 31 := by
  rw [layout.count]
  have low := layout.shiftsLow
  exact Nat.pow_le_pow_right (by decide) (by omega)

theorem bucketIdxFromHash_lt (low : 32 < table.shifts)
    (count : table.buckets.length = 2 ^ (64 - table.shifts)) (high : table.shifts ≤ 62)
    (hash : BitVec 64) : table.bucketIdxFromHash hash < table.buckets.length := by
  have small : hash.toNat >>> table.shifts < 2 ^ (64 - table.shifts) := by
    rw [Nat.shiftRight_eq_div_pow, Nat.div_lt_iff_lt_mul (by positivity), ← Nat.pow_add,
      Nat.sub_add_cancel (by omega)]
    exact hash.isLt
  rw [bucketIdxFromHash, count]
  exact lt_of_le_of_lt (Nat.mod_le _ _) small

/-- The probe of a search after some steps. -/
def probeAt (table : DenseTable κ ν) (hash : BitVec 64) (steps : ℕ) : Probe :=
  ⟨weigh 256 (fingerprint hash) steps,
    ahead table.buckets.length (table.bucketIdxFromHash hash) steps⟩

theorem probeFromHash_eq (table : DenseTable κ ν) (hash : BitVec 64) :
    table.probeFromHash hash = table.probeAt hash 0 := by
  rw [probeFromHash, distAndFingerprintFromHash_eq]
  rfl

theorem weigh_lt (hash : BitVec 64) {steps : ℕ} (near : steps + 1 < 2 ^ 24) :
    weigh 256 (fingerprint hash) steps < 2 ^ 32 := by
  have small := fingerprint_lt hash
  unfold weigh
  omega

theorem advance_probeAt (table : DenseTable κ ν) {hash : BitVec 64} {steps : ℕ}
    (near : steps + 2 < 2 ^ 24) :
    table.advance (table.probeAt hash steps) = table.probeAt hash (steps + 1) := by
  have light := weigh_lt hash near
  rw [weigh_succ] at light
  simp only [advance, probeAt, weigh_succ, ahead_succ, bucketCount]
  rw [distInc_of_lt light]

/-- The bucket that a search meets after some steps. -/
def met (table : DenseTable κ ν) (hash : BitVec 64) (steps : ℕ) : Bucket :=
  table.bucketOf (table.probeAt hash steps)

theorem met_slot (table : DenseTable κ ν) (hash : BitVec 64) (steps : ℕ) :
    (table.met hash steps).slot =
      slots table.buckets (ahead table.buckets.length (table.bucketIdxFromHash hash) steps) :=
  rfl

section Keys

variable [DecidableEq κ] {key : κ}

theorem holdsKey_iff {valueIdx : ℕ} :
    table.holdsKey valueIdx key = true ↔ (table.values.map Prod.fst)[valueIdx]? = some key := by
  rw [holdsKey, decide_eq_true_iff, List.getElem?_map]

theorem lt_of_holdsKey {valueIdx : ℕ} (holds : table.holdsKey valueIdx key = true) :
    valueIdx < table.values.length := by
  rcases List.getElem?_eq_some_iff.mp (holdsKey_iff.mp holds) with ⟨below, -⟩
  rwa [List.length_map] at below

theorem holdsKey_unique (distinct : (table.values.map Prod.fst).Nodup) {first second : ℕ}
    (firstHolds : table.holdsKey first key = true)
    (secondHolds : table.holdsKey second key = true) : first = second := by
  rw [holdsKey_iff] at firstHolds secondHolds
  rcases List.getElem?_eq_some_iff.mp firstHolds with ⟨firstLt, firstKey⟩
  rcases List.getElem?_eq_some_iff.mp secondHolds with ⟨secondLt, secondKey⟩
  exact (List.Nodup.getElem_inj_iff distinct).mp (firstKey.trans secondKey.symm)

theorem hashAt_of_holdsKey {valueIdx : ℕ} (holds : table.holdsKey valueIdx key = true) :
    table.hashAt mixedHash valueIdx = mixedHash key := by
  rw [holdsKey, decide_eq_true_iff, Option.map_eq_some_iff] at holds
  rcases holds with ⟨entry, found, rfl⟩
  rw [hashAt, found]
  rfl

theorem exists_holdsKey_iff :
    (∃ valueIdx, table.holdsKey valueIdx key = true) ↔ key ∈ table.values.map Prod.fst := by
  rw [List.mem_iff_getElem?]
  exact exists_congr fun _ => holdsKey_iff

end Keys

section Searches

variable {stored : Finset ℕ} {hash : BitVec 64}

theorem Layout.homeLt (layout : table.Layout mixedHash stored) (hash : BitVec 64) :
    table.bucketIdxFromHash hash < table.buckets.length :=
  bucketIdxFromHash_lt layout.shiftsLow layout.count layout.shiftsHigh hash

/-- The index in an occupied bucket belongs to the set. -/
theorem Layout.mem_of_met (layout : table.Layout mixedHash stored) {steps : ℕ}
    (occupied : (table.met hash steps).distAndFingerprint ≠ 0) :
    (table.met hash steps).valueIdx ∈ stored :=
  (layout.valid.placed _ (ahead_lt (layout.homeLt hash) steps) occupied).1

/-- A search ends at a lighter bucket. -/
theorem Layout.exists_lighter (layout : table.Layout mixedHash stored) (hash : BitVec 64) :
    ∃ steps ≤ stored.card,
      (table.met hash steps).distAndFingerprint < weigh 256 (fingerprint hash) steps ∧
      ∀ j < steps,
        weigh 256 (fingerprint hash) j ≤ (table.met hash j).distAndFingerprint := by
  rcases layout.valid.exists_first layout.spare (layout.homeLt hash)
    (fun steps =>
      (table.met hash steps).distAndFingerprint < weigh 256 (fingerprint hash) steps)
    (fun steps empty => by
      rw [← met_slot, Bucket.slot] at empty
      have least := unit_le_weigh 256 (fingerprint hash) steps
      simp only at empty
      omega) with ⟨steps, near, light, heavy⟩
  exact ⟨steps, near, light, fun j before => Nat.not_lt.mp (heavy j before)⟩

/-- A search that stops in front of equal weights ends as well. -/
theorem Layout.exists_not_heavier (layout : table.Layout mixedHash stored) (hash : BitVec 64) :
    ∃ steps ≤ stored.card,
      (table.met hash steps).distAndFingerprint ≤ weigh 256 (fingerprint hash) steps ∧
      ∀ j < steps,
        weigh 256 (fingerprint hash) j < (table.met hash j).distAndFingerprint := by
  rcases layout.valid.exists_first layout.spare (layout.homeLt hash)
    (fun steps =>
      (table.met hash steps).distAndFingerprint ≤ weigh 256 (fingerprint hash) steps)
    (fun steps empty => by
      rw [← met_slot, Bucket.slot] at empty
      simp only at empty
      omega) with ⟨steps, near, light, heavy⟩
  exact ⟨steps, near, light, fun j before => Nat.not_le.mp (heavy j before)⟩

/-- The bucket of an index on the way from its home. -/
theorem Layout.exists_met (layout : table.Layout mixedHash stored) {valueIdx : ℕ}
    (listed : valueIdx ∈ stored) (sameHash : table.hashAt mixedHash valueIdx = hash) :
    ∃ steps < stored.card,
      table.met hash steps = ⟨weigh 256 (fingerprint hash) steps, valueIdx⟩ ∧
      ∀ j < steps,
        weigh 256 (fingerprint hash) j ≤ (table.met hash j).distAndFingerprint ∧
        (table.met hash j).valueIdx ≠ valueIdx := by
  rcases layout.valid.exists_steps layout.spare listed with ⟨steps, near, item, weight⟩
  rw [homeAt, sameHash] at item weight
  have homeLt := layout.homeLt hash
  refine ⟨steps, near, ?_, ?_⟩
  · exact congrArg₂ Bucket.mk weight item
  · intro j before
    refine ⟨layout.valid.path homeLt weight.ge before.le, ?_⟩
    have other := layout.valid.item_ne layout.spare homeLt weight.ge before
    rw [item] at other
    exact other

/-- After an equal weight the next bucket weighs at most as much as the probe. -/
theorem Layout.met_succ_le (layout : table.Layout mixedHash stored) {steps : ℕ}
    (equal : weigh 256 (fingerprint hash) steps = (table.met hash steps).distAndFingerprint) :
    (table.met hash (steps + 1)).distAndFingerprint ≤
      weigh 256 (fingerprint hash) (steps + 1) := by
  rw [weigh_succ]
  by_contra heavier
  have least := unit_le_weigh 256 (fingerprint hash) steps
  have nextSlot : (table.met hash (steps + 1)).distAndFingerprint =
      (slots table.buckets (next table.buckets.length
        (ahead table.buckets.length (table.bucketIdxFromHash hash) steps))).weight := rfl
  have grows := layout.valid.ordered _ (ahead_lt (layout.homeLt hash) steps)
    (by rw [← nextSlot]; omega)
  rw [← nextSlot] at grows
  have here : (slots table.buckets (ahead table.buckets.length (table.bucketIdxFromHash hash)
    steps)).weight = (table.met hash steps).distAndFingerprint := rfl
  omega

end Searches

end DenseTable

end GodotStream
