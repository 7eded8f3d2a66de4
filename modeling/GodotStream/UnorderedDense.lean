import GodotStream.Lib.Loop
import GodotStream.Lib.Ring
import GodotStream.Basic
import Mathlib.Data.Nat.Bitwise

/-!
# The dense hash table

`ankerl::unordered_dense::detail::table`, which is under every `a_hashmap` and
`a_hashset`. The entries lie in one dense array. A ring of buckets holds, for each
entry, its index in the array, its distance from the bucket its hash names and
eight bits of the hash. The 32-bit words of a bucket are naturals that wrap where
the code adds to them. Bucket counts are powers of two, on which the product with
the load factor `0.8F` is exact.

An operation has no result when it throws, when it reads an entry that does not
exist, or when one of its loops is still going after a whole turn of the ring.
-/

namespace GodotStream

open Ring

universe u v

/-- `bucket_type::standard`: distance and fingerprint, and the index of the value. -/
structure Bucket where
  distAndFingerprint : ℕ := 0
  valueIdx : ℕ := 0
deriving DecidableEq

instance : Inhabited Bucket :=
  ⟨{}⟩

/-- A probe: what `next_while_less` returns and every search advances. -/
structure Probe where
  distAndFingerprint : ℕ
  bucketIdx : ℕ
deriving DecidableEq

def distInc (x : ℕ) : ℕ :=
  (x + 256) % 2 ^ 32

def distDec (x : ℕ) : ℕ :=
  (x + 2 ^ 32 - 256) % 2 ^ 32

def distAndFingerprintFromHash (hash : BitVec 64) : ℕ :=
  256 ||| (hash.toNat % 2 ^ 32 &&& 255)

def maxBucketCount : ℕ :=
  2 ^ 32

def calcNumBuckets (shifts : ℕ) : ℕ :=
  min maxBucketCount (1 <<< (64 - shifts))

/-- The entries a table holds before it grows; `0.8F` is `13421773 / 2 ^ 24`. -/
def bucketCapacity (numBuckets : ℕ) : ℕ :=
  if numBuckets = maxBucketCount then maxBucketCount else numBuckets * 13421773 / 2 ^ 24

/-- `detail::table` for a map; a set is a map to the unit type. -/
structure DenseTable (κ : Type u) (ν : Type v) where
  values : List (κ × ν)
  buckets : List Bucket
  maxBucketCapacity : ℕ
  shifts : ℕ
deriving DecidableEq

namespace DenseTable

variable {κ : Type u} {ν : Type v}

/-- The bucket at an offset. -/
def bucketAt (buckets : List Bucket) (offset : ℕ) : Bucket :=
  buckets.getD offset default

def bucketCount (table : DenseTable κ ν) : ℕ :=
  table.buckets.length

def bucketIdxFromHash (table : DenseTable κ ν) (hash : BitVec 64) : ℕ :=
  (hash.toNat >>> table.shifts) % 2 ^ 32

/-- Where the search for a hash begins. -/
def probeFromHash (table : DenseTable κ ν) (hash : BitVec 64) : Probe :=
  ⟨distAndFingerprintFromHash hash, table.bucketIdxFromHash hash⟩

/-- One step of a search. -/
def advance (table : DenseTable κ ν) (probe : Probe) : Probe :=
  ⟨distInc probe.distAndFingerprint, next table.bucketCount probe.bucketIdx⟩

/-- The bucket a search looks at. -/
def bucketOf (table : DenseTable κ ν) (probe : Probe) : Bucket :=
  bucketAt table.buckets probe.bucketIdx

/-- The buckets with one in hand and the place it goes to. -/
structure ShiftUp where
  buckets : List Bucket
  bucket : Bucket
  place : ℕ

/-- One round of `place_and_shift_up`: the bucket in hand is exchanged. -/
def ShiftUp.exchange (state : ShiftUp) : ShiftUp :=
  let displaced := bucketAt state.buckets state.place
  { buckets := state.buckets.set state.place state.bucket
    bucket := ⟨distInc displaced.distAndFingerprint, displaced.valueIdx⟩
    place := next state.buckets.length state.place }

/-- `place_and_shift_up`. -/
def placeAndShiftUp (table : DenseTable κ ν) (bucket : Bucket) (place : ℕ) :
    Option (DenseTable κ ν) :=
  (Loop.run
    (Loop.whileBody
      (fun state => (bucketAt state.buckets state.place).distAndFingerprint ≠ 0)
      ShiftUp.exchange)
    table.bucketCount ⟨table.buckets, bucket, place⟩).map fun final =>
      { table with buckets := final.buckets.set final.place final.bucket }

/-- The buckets with a free one. -/
structure ShiftDown where
  buckets : List Bucket
  bucketIdx : ℕ

def ShiftDown.nextBucket (state : ShiftDown) : Bucket :=
  bucketAt state.buckets (next state.buckets.length state.bucketIdx)

/-- One round of `erase_and_shift_down`. -/
def ShiftDown.pull (state : ShiftDown) : ShiftDown :=
  { buckets := state.buckets.set state.bucketIdx
      ⟨distDec state.nextBucket.distAndFingerprint, state.nextBucket.valueIdx⟩
    bucketIdx := next state.buckets.length state.bucketIdx }

/-- `erase_and_shift_down`. -/
def eraseAndShiftDown (table : DenseTable κ ν) (bucketIdx : ℕ) : Option (DenseTable κ ν) :=
  (Loop.run
    (Loop.whileBody (fun state => 256 * 2 ≤ state.nextBucket.distAndFingerprint) ShiftDown.pull)
    table.bucketCount ⟨table.buckets, bucketIdx⟩).map fun final =>
      { table with buckets := final.buckets.set final.bucketIdx default }

/-- `allocate_buckets_from_shift`. -/
def allocateBucketsFromShift (table : DenseTable κ ν) : DenseTable κ ν :=
  let numBuckets := calcNumBuckets table.shifts
  { table with
    buckets := table.buckets.take numBuckets ++
      List.replicate (numBuckets - table.buckets.length) default
    maxBucketCapacity := bucketCapacity numBuckets }

/-- `deallocate_buckets`. -/
def deallocateBuckets (table : DenseTable κ ν) : DenseTable κ ν :=
  { table with buckets := [], maxBucketCapacity := 0 }

/-- `clear_buckets`. -/
def clearBuckets (table : DenseTable κ ν) : DenseTable κ ν :=
  { table with buckets := List.replicate table.bucketCount default }

/-- The default constructor. -/
def create : DenseTable κ ν :=
  clearBuckets (allocateBucketsFromShift ⟨[], [], 0, 62⟩)

/-- `clear`. -/
def clear (table : DenseTable κ ν) : DenseTable κ ν :=
  clearBuckets { table with values := [] }

def isFull (table : DenseTable κ ν) : Bool :=
  table.values.length > table.maxBucketCapacity

/-- The copy constructor with `copy_buckets`. -/
def copy (other : DenseTable κ ν) : DenseTable κ ν :=
  let table : DenseTable κ ν := ⟨other.values, [], 0, 62⟩
  if table.values.isEmpty then
    clearBuckets (allocateBucketsFromShift table)
  else
    { allocateBucketsFromShift { table with shifts := other.shifts } with
      buckets := other.buckets }

section Keys

variable [DecidableEq κ] (mixedHash : κ → BitVec 64)

/-- `m_equal(key, get_key(m_values[value_idx]))`. -/
def holdsKey (table : DenseTable κ ν) (valueIdx : ℕ) (key : κ) : Bool :=
  (table.values[valueIdx]?).map Prod.fst = some key

/-- `next_while_less`. -/
def nextWhileLess (table : DenseTable κ ν) (key : κ) : Option Probe :=
  Loop.run
    (Loop.whileBody
      (fun probe => probe.distAndFingerprint < (table.bucketOf probe).distAndFingerprint)
      table.advance)
    table.bucketCount (table.probeFromHash (mixedHash key))

/-- `clear_and_fill_buckets_from_values`. -/
def clearAndFillBucketsFromValues (table : DenseTable κ ν) : Option (DenseTable κ ν) :=
  table.values.zipIdx.foldlM
    (fun filled entry =>
      (filled.nextWhileLess mixedHash entry.1.1).bind fun probe =>
        filled.placeAndShiftUp ⟨probe.distAndFingerprint, entry.2⟩ probe.bucketIdx)
    table.clearBuckets

/-- `increase_size`. -/
def increaseSize (table : DenseTable κ ν) : Option (DenseTable κ ν) :=
  if table.maxBucketCapacity = maxBucketCount then none
  else
    clearAndFillBucketsFromValues mixedHash
      (allocateBucketsFromShift (deallocateBuckets { table with shifts := table.shifts - 1 }))

/-- The tail of `do_place_element` and `emplace`: the last entry gets a bucket. -/
def placeLast (table : DenseTable κ ν) (probe : Probe) : Option (DenseTable κ ν) :=
  let valueIdx := table.values.length - 1
  if table.isFull then table.increaseSize mixedHash
  else table.placeAndShiftUp ⟨probe.distAndFingerprint, valueIdx⟩ probe.bucketIdx

/-- `do_place_element`. -/
def doPlaceElement (table : DenseTable κ ν) (probe : Probe) (entry : κ × ν) :
    Option (DenseTable κ ν × ℕ × Bool) :=
  (placeLast mixedHash { table with values := table.values ++ [entry] } probe).map fun placed =>
    (placed, table.values.length, true)

/-- The loop of `do_try_emplace`: the index of the key, or where its bucket belongs. -/
def searchForKey (table : DenseTable κ ν) (key : κ) (probe : Probe) : Probe ⊕ (ℕ ⊕ Probe) :=
  let bucket := table.bucketOf probe
  if probe.distAndFingerprint = bucket.distAndFingerprint then
    if table.holdsKey bucket.valueIdx key then .inr (.inl bucket.valueIdx)
    else .inl (table.advance probe)
  else if bucket.distAndFingerprint < probe.distAndFingerprint then .inr (.inr probe)
  else .inl (table.advance probe)

/-- `do_try_emplace`: the table, the index of the entry and whether it is new. -/
def doTryEmplace (table : DenseTable κ ν) (key : κ) (value : ν) :
    Option (DenseTable κ ν × ℕ × Bool) :=
  (Loop.run (table.searchForKey key) table.bucketCount
    (table.probeFromHash (mixedHash key))).bind fun result =>
      result.elim (fun valueIdx => some (table, valueIdx, false))
        (fun probe => table.doPlaceElement mixedHash probe (key, value))

/-- The loop of `emplace`, which compares before it looks for a lighter bucket. -/
def searchForPlace (table : DenseTable κ ν) (key : κ) (probe : Probe) : Probe ⊕ (ℕ ⊕ Probe) :=
  let bucket := table.bucketOf probe
  if probe.distAndFingerprint ≤ bucket.distAndFingerprint then
    if probe.distAndFingerprint = bucket.distAndFingerprint ∧
        table.holdsKey bucket.valueIdx key then
      .inr (.inl bucket.valueIdx)
    else .inl (table.advance probe)
  else .inr (.inr probe)

/-- `emplace` and `insert`: the entry is appended first and taken off again when the
key is present. -/
def emplace (table : DenseTable κ ν) (key : κ) (value : ν) :
    Option (DenseTable κ ν × ℕ × Bool) :=
  let appended := { table with values := table.values ++ [(key, value)] }
  (Loop.run (appended.searchForPlace key) appended.bucketCount
    (appended.probeFromHash (mixedHash key))).bind fun result =>
      result.elim
        (fun valueIdx =>
          some ({ appended with values := appended.values.dropLast }, valueIdx, false))
        (fun probe => (appended.placeLast mixedHash probe).map fun placed =>
          (placed, appended.values.length - 1, true))

/-- `it->second = value`, through the reference to an entry. -/
def writeSecond (table : DenseTable κ ν) (valueIdx : ℕ) (change : ν → ν) : DenseTable κ ν :=
  { table with values := table.values.modify valueIdx fun entry => (entry.1, change entry.2) }

/-- `operator[]` with a change through the reference it returns. -/
def subscript [Inhabited ν] (table : DenseTable κ ν) (key : κ) (change : ν → ν) :
    Option (DenseTable κ ν) :=
  (table.doTryEmplace mixedHash key default).map fun found =>
    found.1.writeSecond found.2.1 change

/-- The last loop of `do_find`; no index means `end()`. -/
def findLoop (table : DenseTable κ ν) (key : κ) (probe : Probe) : Probe ⊕ Option ℕ :=
  let bucket := table.bucketOf probe
  if probe.distAndFingerprint = bucket.distAndFingerprint then
    if table.holdsKey bucket.valueIdx key then .inr (some bucket.valueIdx)
    else .inl (table.advance probe)
  else if bucket.distAndFingerprint < probe.distAndFingerprint then .inr none
  else .inl (table.advance probe)

/-- The test of one bucket in the unrolled part of `do_find`. -/
def findHere (table : DenseTable κ ν) (key : κ) (probe : Probe) : Bool :=
  let bucket := table.bucketOf probe
  probe.distAndFingerprint = bucket.distAndFingerprint ∧ table.holdsKey bucket.valueIdx key

/-- `do_find`: two buckets are tested before the loop, without looking for a lighter one. -/
def doFind (table : DenseTable κ ν) (key : κ) : Option (Option ℕ) :=
  if table.values.isEmpty then some none
  else
    let first := table.probeFromHash (mixedHash key)
    let second := table.advance first
    let third := table.advance second
    if table.findHere key first then some (some (table.bucketOf first).valueIdx)
    else if table.findHere key second then some (some (table.bucketOf second).valueIdx)
    else Loop.run (table.findLoop key) table.bucketCount third

/-- `count`. -/
def count (table : DenseTable κ ν) (key : κ) : Option ℕ :=
  (table.doFind mixedHash key).map fun found => if found = none then 0 else 1

/-- The bucket that holds a value index, searched from the bucket of a hash on. -/
def seekValueIdx (table : DenseTable κ ν) (valueIdx bucketIdx : ℕ) : Option ℕ :=
  Loop.run
    (Loop.whileBody (fun idx => (bucketAt table.buckets idx).valueIdx != valueIdx)
      (next table.bucketCount))
    table.bucketCount bucketIdx

/-- `do_erase` after the buckets have shifted: the last entry moves into the freed slot of
the array, and the bucket that named it is told. -/
def moveLast (table : DenseTable κ ν) (valueIdxToRemove : ℕ) : Option (DenseTable κ ν) :=
  let valuesIdxBack := table.values.length - 1
  if valueIdxToRemove = valuesIdxBack then
    some { table with values := table.values.dropLast }
  else
    table.values.getLast?.bind fun back =>
      (table.seekValueIdx valuesIdxBack (table.bucketIdxFromHash (mixedHash back.1))).map fun idx =>
        { table with
          values := (table.values.set valueIdxToRemove back).dropLast
          buckets := table.buckets.set idx
            { bucketAt table.buckets idx with valueIdx := valueIdxToRemove } }

/-- `do_erase`. -/
def doErase (table : DenseTable κ ν) (bucketIdx : ℕ) : Option (DenseTable κ ν) :=
  (table.eraseAndShiftDown bucketIdx).bind fun shifted =>
    shifted.moveLast mixedHash (bucketAt table.buckets bucketIdx).valueIdx

/-- The second loop of `do_erase_key`, past the buckets of other keys with the same hash bits. -/
def passOthers (table : DenseTable κ ν) (key : κ) (start : Probe) : Option Probe :=
  Loop.run
    (Loop.whileBody
      (fun probe =>
        probe.distAndFingerprint = (table.bucketOf probe).distAndFingerprint ∧
          ¬ table.holdsKey (table.bucketOf probe).valueIdx key)
      table.advance)
    table.bucketCount start

/-- `do_erase_key`: the table and how many entries were erased. -/
def doEraseKey (table : DenseTable κ ν) (key : κ) : Option (DenseTable κ ν × ℕ) :=
  if table.values.isEmpty then some (table, 0)
  else
    ((table.nextWhileLess mixedHash key).bind (table.passOthers key)).bind fun probe =>
      if probe.distAndFingerprint ≠ (table.bucketOf probe).distAndFingerprint then some (table, 0)
      else (table.doErase mixedHash probe.bucketIdx).map fun erased => (erased, 1)

/-- `erase(iterator)`. -/
def eraseIterator (table : DenseTable κ ν) (valueIdx : ℕ) : Option (DenseTable κ ν) :=
  table.values[valueIdx]?.bind fun entry =>
    (table.seekValueIdx valueIdx (table.bucketIdxFromHash (mixedHash entry.1))).bind
      (table.doErase mixedHash)

end Keys

end DenseTable

/-- `wyhash::mix`. -/
def wyhashMix (a b : BitVec 64) : BitVec 64 :=
  let r := a.setWidth 128 * b.setWidth 128
  r.setWidth 64 ^^^ (r >>> 64).setWidth 64

/-- `std::hash<uuids::uuid>`: the two halves of the uuid. -/
def Uuid.hash (uuid : Uuid) : BitVec 64 :=
  let bits : BitVec 128 := uuid
  (bits >>> 64).setWidth 64 ^^^ bits.setWidth 64

/-- `mixed_hash` for a key that is a uuid. -/
def Uuid.mixedHash (uuid : Uuid) : BitVec 64 :=
  wyhashMix uuid.hash 0x9E3779B97F4A7C15#64

end GodotStream
