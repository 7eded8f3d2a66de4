import GodotStream.Lib.Ring
import Mathlib.Data.Finset.Card
import Mathlib.Data.Finset.Insert
import Mathlib.Algebra.Order.Ring.Nat
import Mathlib.Tactic.Ring
import Mathlib.Tactic.Linarith

/-!
# Robin Hood hashing

Open addressing on a ring in which every stored item lies some steps past its
home. A slot carries the weight of its item: one unit for each step past home and
one more, plus a mark below one unit that tells items at the same distance apart.
Weight zero is an empty slot. From a slot to the next one the weight grows by at
most a unit, so a search that follows an item from its home meets only slots that
weigh at least as much as the item would there, up to the item itself.

`Valid` keeps these facts. `Valid.inserted` puts an item in front of the lighter
ones, which move one slot on up to the first empty one. `Valid.erased` moves the
items behind a freed slot one slot back, up to one that is at home.
-/

namespace RobinHood

open Ring

universe u

/-- A slot of the ring. -/
structure Slot (α : Type u) where
  weight : ℕ
  item : α

variable {α : Type u}

/-- The weight of an item with this mark some steps past its home. -/
def weigh (unit mark steps : ℕ) : ℕ :=
  unit * (steps + 1) + mark

theorem weigh_zero (unit mark : ℕ) : weigh unit mark 0 = unit + mark := by
  rw [weigh, Nat.zero_add, Nat.mul_one]

theorem weigh_succ (unit mark steps : ℕ) :
    weigh unit mark (steps + 1) = weigh unit mark steps + unit := by
  unfold weigh
  ring

theorem unit_le_weigh (unit mark steps : ℕ) : unit ≤ weigh unit mark steps := by
  induction steps with
  | zero => rw [weigh_zero]; omega
  | succ steps ih => rw [weigh_succ]; omega

/-- The items of a set laid out on a ring of `size` slots. -/
structure Valid (size unit : ℕ) (home mark : α → ℕ) (stored : Finset α) (slot : ℕ → Slot α) :
    Prop where
  positive : 0 < unit
  fits : ∀ item ∈ stored, home item < size ∧ mark item < unit
  placed : ∀ p < size, (slot p).weight ≠ 0 → (slot p).item ∈ stored ∧ ∃ steps,
    (slot p).weight = weigh unit (mark (slot p).item) steps ∧
      ahead size (home (slot p).item) steps = p
  present : ∀ item ∈ stored, ∃ p < size, (slot p).weight ≠ 0 ∧ (slot p).item = item
  unique : ∀ p < size, ∀ q < size, (slot p).weight ≠ 0 → (slot q).weight ≠ 0 →
    (slot p).item = (slot q).item → p = q
  ordered : ∀ p < size, 2 * unit ≤ (slot (next size p)).weight →
    (slot (next size p)).weight ≤ (slot p).weight + unit

variable {size unit : ℕ} {home mark : α → ℕ} {stored : Finset α} {slot slot' : ℕ → Slot α}

/-- The layout without items. -/
theorem valid_empty (positive : 0 < unit) (empty : ∀ p < size, (slot p).weight = 0) :
    Valid size unit home mark ∅ slot where
  positive := positive
  fits := by simp
  placed p below occupied := absurd (empty p below) occupied
  present := by simp
  unique p below _ _ occupied _ _ := absurd (empty p below) occupied
  ordered p below heavy := by
    rw [empty _ (next_lt below)] at heavy
    omega

/-- Only the homes and marks of the stored items matter. -/
theorem Valid.congr (valid : Valid size unit home mark stored slot) {home' mark' : α → ℕ}
    (same : ∀ item ∈ stored, home' item = home item ∧ mark' item = mark item) :
    Valid size unit home' mark' stored slot where
  positive := valid.positive
  fits item listed := by
    rw [(same item listed).1, (same item listed).2]
    exact valid.fits item listed
  placed p below occupied := by
    rcases valid.placed p below occupied with ⟨listed, reached⟩
    rw [(same _ listed).1, (same _ listed).2]
    exact ⟨listed, reached⟩
  present := valid.present
  unique := valid.unique
  ordered := valid.ordered

/-- A search for an item meets no lighter slot before the item. -/
theorem Valid.path (valid : Valid size unit home mark stored slot) {start steps print : ℕ}
    (below : start < size)
    (reached : weigh unit print steps ≤ (slot (ahead size start steps)).weight) {j : ℕ}
    (before : j ≤ steps) : weigh unit print j ≤ (slot (ahead size start j)).weight := by
  induction steps with
  | zero =>
      obtain rfl : j = 0 := by omega
      exact reached
  | succ steps ih =>
      rcases Nat.lt_or_ge steps j with last | earlier
      · obtain rfl : j = steps + 1 := by omega
        exact reached
      · apply ih _ earlier
        have least := unit_le_weigh unit print steps
        rw [weigh_succ, ahead_succ] at reached
        have grows := valid.ordered _ (ahead_lt below steps) (by omega)
        omega

/-- Some slot among the first ones after a position is empty. -/
theorem Valid.exists_empty (valid : Valid size unit home mark stored slot)
    (spare : stored.card < size) {start : ℕ} (below : start < size) :
    ∃ steps ≤ stored.card, (slot (ahead size start steps)).weight = 0 := by
  by_contra full
  push Not at full
  have maps : ∀ steps ∈ Finset.range (stored.card + 1),
      (slot (ahead size start steps)).item ∈ stored := by
    intro steps near
    rw [Finset.mem_range] at near
    exact (valid.placed _ (ahead_lt below steps) (full steps (by omega))).1
  rcases Finset.exists_ne_map_eq_of_card_lt_of_maps_to (by simp) maps with
    ⟨j, jNear, k, kNear, distinct, same⟩
  rw [Finset.mem_range] at jNear kNear
  have samePlace := valid.unique _ (ahead_lt below j) _ (ahead_lt below k)
    (full j (by omega)) (full k (by omega)) same
  exact distinct (ahead_inj below (by omega) (by omega) samePlace)

/-- A condition that an empty slot meets is first met within as many steps as there are items. -/
theorem Valid.exists_first (valid : Valid size unit home mark stored slot)
    (spare : stored.card < size) {start : ℕ} (below : start < size) (condition : ℕ → Prop)
    [DecidablePred condition]
    (onEmpty : ∀ steps, (slot (ahead size start steps)).weight = 0 → condition steps) :
    ∃ steps ≤ stored.card, condition steps ∧ ∀ j < steps, ¬ condition j := by
  rcases valid.exists_empty spare below with ⟨bound, near, empty⟩
  have some : ∃ steps, condition steps := ⟨bound, onEmpty bound empty⟩
  exact ⟨Nat.find some, (Nat.find_min' some (onEmpty bound empty)).trans near,
    Nat.find_spec some, fun j => Nat.find_min some⟩

/-- No item lies further from home than there are items. -/
theorem Valid.steps_lt (valid : Valid size unit home mark stored slot)
    (spare : stored.card < size) {start steps print : ℕ} (below : start < size)
    (reached : weigh unit print steps ≤ (slot (ahead size start steps)).weight) :
    steps < stored.card := by
  rcases valid.exists_empty spare below with ⟨bound, near, empty⟩
  by_contra far
  have heavy := valid.path below reached (show bound ≤ steps by omega)
  have least := unit_le_weigh unit print bound
  have positive := valid.positive
  omega

/-- Where a stored item lies. -/
theorem Valid.exists_steps (valid : Valid size unit home mark stored slot)
    (spare : stored.card < size) {item : α} (present : item ∈ stored) :
    ∃ steps < stored.card, (slot (ahead size (home item) steps)).item = item ∧
      (slot (ahead size (home item) steps)).weight = weigh unit (mark item) steps := by
  rcases valid.present item present with ⟨p, below, occupied, same⟩
  rcases (valid.placed p below occupied).2 with ⟨steps, weight, reached⟩
  rw [same] at weight reached
  rw [← reached] at same weight
  exact ⟨steps, valid.steps_lt spare (valid.fits item present).1 weight.ge, same, weight⟩

/-- Slots before an item on its way from home hold other items. -/
theorem Valid.item_ne (valid : Valid size unit home mark stored slot)
    (spare : stored.card < size) {start print steps j : ℕ} (below : start < size)
    (reached : weigh unit print steps ≤ (slot (ahead size start steps)).weight)
    (before : j < steps) :
    (slot (ahead size start j)).item ≠ (slot (ahead size start steps)).item := by
  intro same
  have near := valid.steps_lt spare below reached
  have heavy := valid.path below reached before.le
  have positive := valid.positive
  have least := unit_le_weigh unit print j
  have least' := unit_le_weigh unit print steps
  have samePlace := valid.unique _ (ahead_lt below j) _ (ahead_lt below steps) (by omega)
    (by omega) same
  have equal := ahead_inj below (by omega) (by omega) samePlace
  omega

/-- The occupied slots from a position up to the first empty one. -/
structure Stretch (size : ℕ) (slot : ℕ → Slot α) (place length : ℕ) : Prop where
  below : length < size
  occupied : ∀ i < length, (slot (ahead size place i)).weight ≠ 0
  empty : (slot (ahead size place length)).weight = 0

theorem Valid.exists_stretch (valid : Valid size unit home mark stored slot)
    (spare : stored.card < size) {place : ℕ} (below : place < size) :
    ∃ length ≤ stored.card, Stretch size slot place length := by
  rcases valid.exists_first spare below
    (fun steps => (slot (ahead size place steps)).weight = 0) (fun _ empty => empty)
    with ⟨length, near, empty, occupied⟩
  exact ⟨length, near, by omega, occupied, empty⟩

/-- An entry put at a position, and the stretch from there moved one slot on. -/
structure Raised (size unit : ℕ) (slot slot' : ℕ → Slot α) (place length : ℕ)
    (entry : Slot α) : Prop where
  entry : slot' place = entry
  raised : ∀ i < length, slot' (ahead size place (i + 1)) =
    ⟨(slot (ahead size place i)).weight + unit, (slot (ahead size place i)).item⟩
  kept : ∀ i, length < i → i < size → slot' (ahead size place i) = slot (ahead size place i)

variable {place length : ℕ} {entry : Slot α}

/-- The offset from which the item at an offset came. -/
def origin (length i : ℕ) : ℕ :=
  if i ≤ length then i - 1 else i

theorem Raised.item_origin (raised : Raised size unit slot slot' place length entry) {i : ℕ}
    (later : 0 < i) (below : i < size) :
    (slot' (ahead size place i)).item = (slot (ahead size place (origin length i))).item := by
  unfold origin
  split
  case isTrue near =>
    obtain ⟨j, rfl⟩ : ∃ j, i = j + 1 := ⟨i - 1, by omega⟩
    rw [raised.raised j (by omega), Nat.add_sub_cancel]
  case isFalse far => rw [raised.kept i (by omega) below]

theorem Raised.occupied_origin (raised : Raised size unit slot slot' place length entry)
    (stretch : Stretch size slot place length) {i : ℕ} (later : 0 < i) (below : i < size)
    (occupied : (slot' (ahead size place i)).weight ≠ 0) :
    (slot (ahead size place (origin length i))).weight ≠ 0 := by
  unfold origin
  split
  case isTrue near => exact stretch.occupied _ (by omega)
  case isFalse far => rwa [raised.kept i (by omega) below] at occupied

theorem Raised.placed (raised : Raised size unit slot slot' place length entry)
    (stretch : Stretch size slot place length) (valid : Valid size unit home mark stored slot)
    (below : place < size) {i : ℕ} (later : 0 < i) (turn : i < size)
    (occupied : (slot' (ahead size place i)).weight ≠ 0) :
    (slot' (ahead size place i)).item ∈ stored ∧ ∃ steps,
      (slot' (ahead size place i)).weight =
        weigh unit (mark (slot' (ahead size place i)).item) steps ∧
      ahead size (home (slot' (ahead size place i)).item) steps = ahead size place i := by
  by_cases near : i ≤ length
  · obtain ⟨j, rfl⟩ : ∃ j, i = j + 1 := ⟨i - 1, by omega⟩
    rw [raised.raised j (by omega)]
    rcases valid.placed _ (ahead_lt below j) (stretch.occupied j (by omega)) with
      ⟨listed, steps, weight, reached⟩
    refine ⟨listed, steps + 1, ?_, ?_⟩
    · rw [weigh_succ, weight]
    · rw [ahead_succ, reached, ahead_succ]
  · rw [raised.kept i (by omega) turn] at occupied ⊢
    exact valid.placed _ (ahead_lt below i) occupied

/-- The weights still grow by at most a unit after the stretch moved on. -/
theorem Raised.ordered (raised : Raised size unit slot slot' place length entry)
    (stretch : Stretch size slot place length) (valid : Valid size unit home mark stored slot)
    {start steps print : ℕ} (below : start < size) (reached : ahead size start steps = place)
    (weight : entry.weight = weigh unit print steps) (small : print < unit)
    (before : ∀ j < steps, weigh unit print j ≤ (slot (ahead size start j)).weight)
    (here : (slot place).weight ≤ weigh unit print steps) {i : ℕ} (turn : i < size)
    (heavy : 2 * unit ≤ (slot' (next size (ahead size place i))).weight) :
    (slot' (next size (ahead size place i))).weight ≤
      (slot' (ahead size place i)).weight + unit := by
  have placeLt : place < size := reached ▸ ahead_lt below steps
  have unitLe (p : ℕ) (pLt : p < size) (occupied : (slot p).weight ≠ 0) :
      unit ≤ (slot p).weight := by
    rcases (valid.placed p pLt occupied).2 with ⟨steps, weight, -⟩
    exact weight ▸ unit_le_weigh _ _ _
  have emptyNext : (slot (next size (ahead size place length))).weight < 2 * unit := by
    by_contra heavyNext
    have grows := valid.ordered _ (ahead_lt placeLt length) (by omega)
    rw [stretch.empty] at grows
    have positive := valid.positive
    omega
  rw [← ahead_succ] at heavy emptyNext ⊢
  rcases Nat.lt_or_ge (i + 1) size with inside | last
  · rcases Nat.lt_trichotomy i length with moved | rfl | far
    · rw [raised.raised i moved] at heavy ⊢
      simp only at heavy ⊢
      rcases i with _ | i
      · rw [ahead_zero, raised.entry, weight]
        omega
      · rw [raised.raised i (by omega)]
        simp only
        have occupied := unitLe _ (ahead_lt placeLt i) (stretch.occupied i (by omega))
        rcases Nat.lt_or_ge (slot (ahead size place (i + 1))).weight (2 * unit) with light | heavy
        · omega
        · have grows := valid.ordered _ (ahead_lt placeLt i) heavy
          rw [← ahead_succ] at grows
          omega
    · rw [raised.kept (i + 1) (by omega) inside] at heavy
      omega
    · rw [raised.kept (i + 1) (by omega) inside] at heavy ⊢
      rw [raised.kept i far turn]
      exact valid.ordered _ (ahead_lt placeLt i) heavy
  · -- The slot before the new entry, reached after one turn.
    obtain rfl : i + 1 = size := by omega
    rw [ahead_self placeLt, raised.entry, weight] at heavy ⊢
    rcases steps with _ | steps
    · rw [weigh_zero] at heavy
      omega
    · have previous : ahead (i + 1) place i = ahead (i + 1) start steps := by
        rw [ahead_succ] at reached
        rw [← reached, ahead_next, ahead_self (ahead_lt below steps)]
      have heavyBefore := before steps (by omega)
      have positive := valid.positive
      have least := unit_le_weigh unit print steps
      have far : length < i := by
        rcases Nat.lt_or_ge length i with far | near
        · exact far
        · obtain rfl : length = i := by
            have below := stretch.below
            omega
          have empty := stretch.empty
          rw [previous] at empty
          omega
      rw [raised.kept i far turn, previous, weigh_succ]
      omega

/-- An item still lies in one slot only. -/
theorem Raised.unique (raised : Raised size unit slot slot' place length entry)
    (stretch : Stretch size slot place length) (valid : Valid size unit home mark stored slot)
    (below : place < size) (fresh : entry.item ∉ stored) {p q : ℕ} (pLt : p < size)
    (qLt : q < size) (pOccupied : (slot' p).weight ≠ 0) (qOccupied : (slot' q).weight ≠ 0)
    (same : (slot' p).item = (slot' q).item) : p = q := by
  rcases exists_ahead below pLt with ⟨i, iTurn, rfl⟩
  rcases exists_ahead below qLt with ⟨j, jTurn, rfl⟩
  have notEntry {k : ℕ} (later : 0 < k) (turn : k < size)
      (occupied : (slot' (ahead size place k)).weight ≠ 0) :
      (slot' (ahead size place k)).item ≠ entry.item := by
    intro clash
    exact fresh (clash ▸ (raised.placed stretch valid below later turn occupied).1)
  rcases Nat.eq_zero_or_pos i with rfl | iLater <;> rcases Nat.eq_zero_or_pos j with rfl | jLater
  · rfl
  · rw [ahead_zero, raised.entry] at same
    exact absurd same.symm (notEntry jLater jTurn qOccupied)
  · rw [ahead_zero _ place, raised.entry] at same
    exact absurd same (notEntry iLater iTurn pOccupied)
  · rw [raised.item_origin iLater iTurn, raised.item_origin jLater jTurn] at same
    have samePlace := valid.unique _ (ahead_lt below _) _ (ahead_lt below _)
      (raised.occupied_origin stretch iLater iTurn pOccupied)
      (raised.occupied_origin stretch jLater jTurn qOccupied) same
    have sameOrigin := ahead_inj below (by unfold origin; split <;> omega)
      (by unfold origin; split <;> omega) samePlace
    have equal : i = j := by
      unfold origin at sameOrigin
      split_ifs at sameOrigin <;> omega
    rw [equal]

variable [DecidableEq α]

/-- Putting a new item in front of the lighter ones. -/
theorem Valid.inserted (valid : Valid size unit home mark stored slot) {item : α} (steps : ℕ)
    (fresh : item ∉ stored) (homeLt : home item < size) (markLt : mark item < unit)
    (before : ∀ j < steps, weigh unit (mark item) j ≤ (slot (ahead size (home item) j)).weight)
    (here : (slot (ahead size (home item) steps)).weight ≤ weigh unit (mark item) steps)
    (stretch : Stretch size slot (ahead size (home item) steps) length)
    (raised : Raised size unit slot slot' (ahead size (home item) steps) length
      ⟨weigh unit (mark item) steps, item⟩) :
    Valid size unit home mark (insert item stored) slot' := by
  have placeLt := ahead_lt homeLt steps
  have positive := valid.positive
  constructor
  · exact positive
  · intro other listed
    rcases Finset.mem_insert.mp listed with rfl | old
    · exact ⟨homeLt, markLt⟩
    · exact valid.fits other old
  · intro p below occupied
    rcases exists_ahead placeLt below with ⟨i, turn, rfl⟩
    rcases Nat.eq_zero_or_pos i with rfl | later
    · rw [ahead_zero, raised.entry]
      exact ⟨Finset.mem_insert_self _ _, steps, rfl, rfl⟩
    · rcases raised.placed stretch valid placeLt later turn occupied with ⟨listed, rest⟩
      exact ⟨Finset.mem_insert_of_mem listed, rest⟩
  · intro other listed
    rcases Finset.mem_insert.mp listed with rfl | old
    · refine ⟨_, placeLt, ?_, ?_⟩
      · rw [raised.entry]
        have least := unit_le_weigh unit (mark other) steps
        simp only
        omega
      · rw [raised.entry]
    · rcases valid.present other old with ⟨q, below, occupied, rfl⟩
      rcases exists_ahead placeLt below with ⟨i, turn, rfl⟩
      rcases Nat.lt_trichotomy i length with moved | rfl | far
      · refine ⟨_, ahead_lt placeLt (i + 1), ?_, ?_⟩
        · rw [raised.raised i moved]
          simp only
          omega
        · rw [raised.raised i moved]
      · exact absurd stretch.empty occupied
      · rw [← raised.kept i far turn] at occupied ⊢
        exact ⟨_, ahead_lt placeLt i, occupied, rfl⟩
  · exact fun p pLt q qLt => raised.unique stretch valid placeLt fresh pLt qLt
  · intro p below heavy
    rcases exists_ahead placeLt below with ⟨i, turn, rfl⟩
    exact raised.ordered stretch valid homeLt rfl rfl markLt before here turn heavy

/-- The items behind a slot that are not at home, up to the first slot that is at home or empty. -/
structure Tail (size unit : ℕ) (slot : ℕ → Slot α) (place length : ℕ) : Prop where
  below : length + 1 < size
  away : ∀ i < length, 2 * unit ≤ (slot (ahead size place (i + 1))).weight
  ends : (slot (ahead size place (length + 1))).weight < 2 * unit

/-- The tail moved one slot back over the freed slot. -/
structure Lowered (size unit : ℕ) (slot slot' : ℕ → Slot α) (place length : ℕ) : Prop where
  lowered : ∀ i < length, slot' (ahead size place i) =
    ⟨(slot (ahead size place (i + 1))).weight - unit, (slot (ahead size place (i + 1))).item⟩
  freed : (slot' (ahead size place length)).weight = 0
  kept : ∀ i, length < i → i < size → slot' (ahead size place i) = slot (ahead size place i)

omit [DecidableEq α] in
theorem Valid.exists_tail (valid : Valid size unit home mark stored slot)
    (spare : stored.card < size) (below : place < size) (occupied : (slot place).weight ≠ 0) :
    ∃ length < stored.card, Tail size unit slot place length := by
  have positive := valid.positive
  rcases valid.exists_first spare (next_lt below)
    (fun steps => (slot (ahead size (next size place) steps)).weight < 2 * unit)
    (fun steps empty => by omega) with ⟨length, -, light, away⟩
  rcases valid.exists_stretch spare below with ⟨bound, near, stretch⟩
  have inside : length < bound := by
    obtain ⟨rest, rfl⟩ : ∃ rest, bound = rest + 1 := by
      rcases bound with _ | rest
      · exact absurd stretch.empty occupied
      · exact ⟨rest, rfl⟩
    by_contra far
    have heavy := away rest (by omega)
    rw [ahead_next, stretch.empty] at heavy
    omega
  refine ⟨length, by omega, ?_, ?_, ?_⟩
  · have within := stretch.below
    omega
  · intro i near
    have heavy := away i near
    rw [ahead_next] at heavy
    omega
  · rw [ahead_next] at light
    exact light

/-- The offset from which the item at an offset came. -/
def source (length i : ℕ) : ℕ :=
  if i < length then i + 1 else i

omit [DecidableEq α] in
theorem Lowered.placed (lowered : Lowered size unit slot slot' place length)
    (tail : Tail size unit slot place length) (valid : Valid size unit home mark stored slot)
    (below : place < size) {i : ℕ} (turn : i < size)
    (occupied : (slot' (ahead size place i)).weight ≠ 0) :
    (slot' (ahead size place i)).item = (slot (ahead size place (source length i))).item ∧
      (slot (ahead size place (source length i))).weight ≠ 0 ∧ 0 < source length i ∧
      source length i < size ∧ ∃ steps,
        (slot' (ahead size place i)).weight =
          weigh unit (mark (slot' (ahead size place i)).item) steps ∧
        ahead size (home (slot' (ahead size place i)).item) steps = ahead size place i := by
  have positive := valid.positive
  have within := tail.below
  rcases Nat.lt_trichotomy i length with moved | rfl | far
  · have away := tail.away i moved
    simp only [source, if_pos moved]
    rw [lowered.lowered i moved]
    have old : (slot (ahead size place (i + 1))).weight ≠ 0 := by omega
    refine ⟨rfl, old, by omega, by omega, ?_⟩
    rcases valid.placed _ (ahead_lt below (i + 1)) old with ⟨listed, steps, weight, reached⟩
    have markLt := (valid.fits _ listed).2
    rcases steps with _ | steps
    · rw [weigh_zero] at weight
      omega
    · refine ⟨steps, ?_, ?_⟩
      · simp only
        rw [weight, weigh_succ, Nat.add_sub_cancel]
      · -- Both positions come just before the same one.
        rw [ahead_succ, ahead_succ] at reached
        exact next_inj reached
  · exact absurd lowered.freed occupied
  · simp only [source, if_neg (show ¬ i < length by omega)]
    rw [lowered.kept i far turn] at occupied ⊢
    exact ⟨rfl, occupied, by omega, turn, (valid.placed _ (ahead_lt below i) occupied).2⟩

omit [DecidableEq α] in
/-- The weights still grow by at most a unit after the tail moved back. -/
theorem Lowered.ordered (lowered : Lowered size unit slot slot' place length)
    (tail : Tail size unit slot place length) (valid : Valid size unit home mark stored slot)
    (below : place < size) {i : ℕ} (turn : i < size)
    (heavy : 2 * unit ≤ (slot' (next size (ahead size place i))).weight) :
    (slot' (next size (ahead size place i))).weight ≤
      (slot' (ahead size place i)).weight + unit := by
  have positive := valid.positive
  have within := tail.below
  rw [← ahead_succ] at heavy ⊢
  rcases Nat.lt_or_ge (i + 1) size with inside | last
  · rcases Nat.lt_trichotomy (i + 1) length with moved | rfl | far
    · have grows := valid.ordered _ (ahead_lt below (i + 1)) (tail.away (i + 1) moved)
      rw [lowered.lowered (i + 1) moved, lowered.lowered i (by omega)]
      rw [← ahead_succ] at grows
      simp only
      omega
    · rw [lowered.freed] at heavy
      omega
    · rw [lowered.kept (i + 1) far inside] at heavy ⊢
      rcases Nat.lt_or_ge length i with later | edge
      · rw [lowered.kept i later turn]
        exact valid.ordered _ (ahead_lt below i) heavy
      · obtain rfl : i = length := by omega
        have ends := tail.ends
        omega
  · -- The slot before the freed one, reached after one turn.
    obtain rfl : i + 1 = size := by omega
    rw [ahead_self below] at heavy ⊢
    rw [lowered.kept i (by omega) turn]
    rcases length with _ | length
    · have freed := lowered.freed
      rw [ahead_zero] at freed
      omega
    · have moved := lowered.lowered 0 (by omega)
      rw [ahead_zero] at moved
      rw [moved] at heavy ⊢
      have grows := valid.ordered _ below (tail.away 0 (by omega))
      have before := valid.ordered _ (ahead_lt below i)
      rw [← ahead_succ, ahead_self below] at before
      rw [ahead_succ, ahead_zero] at heavy ⊢
      simp only at heavy ⊢
      omega

/-- Freeing a slot takes its item out of the set. -/
theorem Valid.erased (valid : Valid size unit home mark stored slot) (below : place < size)
    (occupied : (slot place).weight ≠ 0) (tail : Tail size unit slot place length)
    (lowered : Lowered size unit slot slot' place length) :
    Valid size unit home mark (stored.erase (slot place).item) slot' := by
  have positive := valid.positive
  have within := tail.below
  constructor
  · exact positive
  · exact fun item listed => valid.fits item (Finset.mem_of_mem_erase listed)
  · intro p pLt pOccupied
    rcases exists_ahead below pLt with ⟨i, turn, rfl⟩
    rcases lowered.placed tail valid below turn pOccupied with
      ⟨same, old, later, sourceTurn, rest⟩
    refine ⟨Finset.mem_erase.mpr ⟨?_, ?_⟩, rest⟩
    · rw [same]
      intro clash
      have samePlace := valid.unique _ (ahead_lt below _) _ below old occupied clash
      have zero := ahead_inj (k := 0) below sourceTurn (by omega) samePlace
      omega
    · rw [same]
      exact (valid.placed _ (ahead_lt below _) old).1
  · intro item listed
    rcases valid.present item (Finset.mem_of_mem_erase listed) with ⟨q, qLt, qOccupied, rfl⟩
    rcases exists_ahead below qLt with ⟨i, turn, rfl⟩
    rcases i with _ | i
    · exact absurd rfl (Finset.ne_of_mem_erase listed)
    · by_cases moved : i < length
      · refine ⟨_, ahead_lt below i, ?_, ?_⟩
        · rw [lowered.lowered i moved]
          have away := tail.away i moved
          simp only
          omega
        · rw [lowered.lowered i moved]
      · rw [← lowered.kept (i + 1) (by omega) turn] at qOccupied ⊢
        exact ⟨_, ahead_lt below (i + 1), qOccupied, rfl⟩
  · intro p pLt q qLt pOccupied qOccupied same
    rcases exists_ahead below pLt with ⟨i, iTurn, rfl⟩
    rcases exists_ahead below qLt with ⟨j, jTurn, rfl⟩
    rcases lowered.placed tail valid below iTurn pOccupied with ⟨iSame, iOld, -, iSource, -⟩
    rcases lowered.placed tail valid below jTurn qOccupied with ⟨jSame, jOld, -, jSource, -⟩
    rw [iSame, jSame] at same
    have samePlace := valid.unique _ (ahead_lt below _) _ (ahead_lt below _) iOld jOld same
    have sameSource := ahead_inj below iSource jSource samePlace
    have iNe : i ≠ length := by
      rintro rfl
      exact pOccupied lowered.freed
    have jNe : j ≠ length := by
      rintro rfl
      exact qOccupied lowered.freed
    have equal : i = j := by
      unfold source at sameSource
      split_ifs at sameSource <;> omega
    rw [equal]
  · intro p pLt heavy
    rcases exists_ahead below pLt with ⟨i, turn, rfl⟩
    exact lowered.ordered tail valid below turn heavy

/-- A new item takes the slot of another with the same home and mark. -/
theorem Valid.relabelled (valid : Valid size unit home mark stored slot)
    (item : α) (home' mark' : α → ℕ) (slot' : ℕ → Slot α) (below : place < size)
    (occupied : (slot place).weight ≠ 0) (fresh : item ∉ stored)
    (sameHome : home' item = home (slot place).item)
    (sameMark : mark' item = mark (slot place).item)
    (others : ∀ other ∈ stored.erase (slot place).item,
      home' other = home other ∧ mark' other = mark other)
    (here : slot' place = ⟨(slot place).weight, item⟩)
    (kept : ∀ p < size, p ≠ place → slot' p = slot p) :
    Valid size unit home' mark' (insert item (stored.erase (slot place).item)) slot' := by
  have listed := (valid.placed place below occupied).1
  have weight (p : ℕ) (pLt : p < size) : (slot' p).weight = (slot p).weight := by
    by_cases samePlace : p = place
    · rw [samePlace, here]
    · rw [kept p pLt samePlace]
  have old {p : ℕ} (pLt : p < size) (pOccupied : (slot p).weight ≠ 0) (elsewhere : p ≠ place) :
      (slot p).item ∈ stored.erase (slot place).item :=
    Finset.mem_erase.mpr ⟨fun clash => elsewhere (valid.unique p pLt place below pOccupied occupied
      clash), (valid.placed p pLt pOccupied).1⟩
  constructor
  · exact valid.positive
  · intro other otherListed
    rcases Finset.mem_insert.mp otherListed with rfl | old
    · rw [sameHome, sameMark]
      exact valid.fits _ listed
    · rw [(others other old).1, (others other old).2]
      exact valid.fits other (Finset.mem_of_mem_erase old)
  · intro p pLt pOccupied
    rw [weight p pLt] at pOccupied ⊢
    rcases valid.placed p pLt pOccupied with ⟨-, steps, weighs, reached⟩
    by_cases samePlace : p = place
    · subst samePlace
      rw [here]
      exact ⟨Finset.mem_insert_self _ _, steps, by rw [sameMark, weighs],
        by rw [sameHome, reached]⟩
    · rw [kept p pLt samePlace]
      have same := others _ (old pLt pOccupied samePlace)
      exact ⟨Finset.mem_insert_of_mem (old pLt pOccupied samePlace), steps,
        by rw [same.2, weighs], by rw [same.1, reached]⟩
  · intro other otherListed
    rcases Finset.mem_insert.mp otherListed with rfl | otherOld
    · exact ⟨place, below, by rw [here]; exact occupied, by rw [here]⟩
    · rcases valid.present other (Finset.mem_of_mem_erase otherOld) with
        ⟨p, pLt, pOccupied, rfl⟩
      have elsewhere : p ≠ place := by
        rintro rfl
        exact Finset.ne_of_mem_erase otherOld rfl
      exact ⟨p, pLt, by rw [kept p pLt elsewhere]; exact pOccupied,
        by rw [kept p pLt elsewhere]⟩
  · intro p pLt q qLt pOccupied qOccupied same
    rw [weight p pLt] at pOccupied
    rw [weight q qLt] at qOccupied
    by_cases pPlace : p = place <;> by_cases qPlace : q = place
    · rw [pPlace, qPlace]
    · rw [pPlace, here, kept q qLt qPlace] at same
      exact absurd (Finset.mem_of_mem_erase (old qLt qOccupied qPlace)) (same ▸ fresh)
    · rw [qPlace, here, kept p pLt pPlace] at same
      exact absurd (Finset.mem_of_mem_erase (old pLt pOccupied pPlace)) (same ▸ fresh)
    · rw [kept p pLt pPlace, kept q qLt qPlace] at same
      exact valid.unique p pLt q qLt pOccupied qOccupied same
  · intro p pLt heavy
    rw [weight _ (next_lt pLt)] at heavy ⊢
    rw [weight p pLt]
    exact valid.ordered p pLt heavy

end RobinHood
