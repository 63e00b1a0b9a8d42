import PhysicalHarness.Board.Burned
import PhysicalHarness.Evolve.Suite
import PhysicalHarness.Lib.Spans

namespace PhysicalHarness
namespace Scripts

open Board Spans Fallible
open PhysicalHarness.Evolve (seedRange mem_seedRange)

/-!
# The blocks of a campaign

A campaign takes three blocks of seeds: to calibrate, to develop and to hold out.  One
range that is free of the burned blocks is split in three, and a block that the operator
pins takes the place of its part.
-/

/-- An inclusive pair of bounds. -/
abbrev Bounds := Int × Int

def precedes (left right : Bounds) : Prop := left.1 < right.1 ∨ left.1 = right.1 ∧ left.2 ≤ right.2

instance : DecidableRel precedes := fun left right =>
  inferInstanceAs (Decidable (left.1 < right.1 ∨ left.1 = right.1 ∧ left.2 ≤ right.2))

instance : Std.Total precedes := ⟨fun left right => by unfold precedes; omega⟩

instance : IsTrans Bounds precedes := ⟨fun left middle right first second => by
  unfold precedes at first second ⊢
  omega⟩

/-- `_merge`. -/
def mergeBounds (intervals : List Bounds) : List Bounds := fuse (intervals.insertionSort precedes)

/-- `next_block`. -/
def nextBlock (n : Int) (taken : List Bounds) (floor : Int) : Except String Bounds :=
  if n ≤ 0 then .error ("block size N must be positive, got " ++ toString n)
  else .ok (firstFree n (mergeBounds taken) floor, firstFree n (mergeBounds taken) floor + n)

theorem ascending_insertionSort (intervals : List Bounds) :
    Ascending (intervals.insertionSort precedes) := by
  refine (List.pairwise_insertionSort precedes intervals).imp ?_
  intro left right ordered
  rcases ordered with before | ⟨same, _⟩
  · exact before.le
  · exact same.le

variable {taken : List Bounds} {blocks : Blocks} {floor lo : Int} {pins : Pins}

theorem isLeast_of_nextBlock {n : Int} {block : Bounds}
    (found : nextBlock n taken floor = .ok block) :
    0 < n ∧ block.2 = block.1 + n ∧ IsLeast {lo | floor ≤ lo ∧ Clear n taken lo} block.1 := by
  by_cases size : n ≤ 0
  · rw [nextBlock, if_pos size] at found
    cases found
  rw [nextBlock, if_neg size] at found
  cases found
  have positive : 0 < n := not_le.mp size
  refine ⟨positive, rfl, ?_⟩
  have least := isLeast_firstFree_fuse positive (ascending_insertionSort taken) floor
  have same : ∀ lo, Clear n (taken.insertionSort precedes) lo ↔ Clear n taken lo :=
    fun lo => clear_of_perm (List.perm_insertionSort precedes taken)
  simp only [same] at least
  exact least

/-! ## The three blocks -/

/-- `CAL_N`, `DEV_N` and `HELDOUT_N`. -/
def calN : Int := 150

def devN : Int := 300

def heldoutN : Int := 200

/-- `SEED_CEILING`. -/
def seedCeiling : Int := 542479

/-- The blocks by their roles. -/
structure Blocks where
  cal : Bounds
  dev : Bounds
  heldout : Bounds
  deriving DecidableEq, Repr

/-- The blocks that the operator pins. -/
structure Pins where
  cal : Option Bounds
  dev : Option Bounds
  heldout : Option Bounds

def Pins.given (pins : Pins) : List Bounds :=
  pins.cal.toList ++ pins.dev.toList ++ pins.heldout.toList

/-- `seeds`. -/
def seeds (block : Bounds) : List Int := seedRange block.1 block.2

/-- `alo <= bhi and blo <= ahi`. -/
def overlaps (block other : Bounds) : Bool := decide (block.1 ≤ other.2) && decide (other.1 ≤ block.2)

def boundsText (block : Bounds) : String := "[" ++ toString block.1 ++ "," ++ toString block.2 ++ "]"

def checkApart (role : String) (block : Bounds) (otherRole : String) (other : Bounds) :
    Except String Unit :=
  if overlaps block other then
    .error (role ++ " block " ++ boundsText block ++ " overlaps " ++ otherRole ++ " block " ++
      boundsText other ++ "; the three roles must be disjoint (a block that both calibrates " ++
      "and gates is not evidence)")
  else .ok ()

def checkBurned (role : String) (block : Bounds) (taken : List Bounds) : Except String Unit :=
  match taken.find? (overlaps block) with
  | some hit => .error (role ++ " block " ++ boundsText block ++ " hits burned " ++ boundsText hit)
  | none => .ok ()

def checkCeiling (hi : Int) : Except String Unit :=
  if seedCeiling < hi then
    .error ("allocator reached seed " ++ toString hi ++ " but the driver's RandomState seeding " ++
      "(\x7bseed\x7d*7919+11) overflows above " ++ toString seedCeiling ++ "; the ledger frontier " ++
      "has outrun the seeding scheme -- fix the seeding before allocating here")
  else .ok ()

def autoBlocks (lo hi : Int) : Blocks where
  cal := (lo, lo + calN - 1)
  dev := (lo + calN, lo + calN + devN - 1)
  heldout := (lo + calN + devN, hi - 1)

def Blocks.pinned (auto : Blocks) (pins : Pins) : Blocks where
  cal := pins.cal.getD auto.cal
  dev := pins.dev.getD auto.dev
  heldout := pins.heldout.getD auto.heldout

/-- `allocate`. -/
def allocate (burned : List Block) (floor : Int) (pins : Pins) : Except String Blocks := do
  let taken := burned.map (fun block => (block.lo, block.hi))
  let range ← nextBlock (calN + devN + heldoutN) taken floor
  checkCeiling range.2
  let blocks := (autoBlocks range.1 range.2).pinned pins
  checkApart "cal" blocks.cal "dev" blocks.dev
  checkApart "cal" blocks.cal "heldout" blocks.heldout
  checkApart "dev" blocks.dev "heldout" blocks.heldout
  checkBurned "dev" blocks.dev taken
  checkBurned "heldout" blocks.heldout taken
  return blocks

/-! ## What the checks say -/

theorem seeds_disjoint {block other : Bounds} (apart : overlaps block other = false) {seed : Int}
    (first : seed ∈ seeds block) : seed ∉ seeds other := by
  intro second
  rw [seeds, mem_seedRange] at first second
  rw [overlaps, Bool.and_eq_false_iff, decide_eq_false_iff_not, decide_eq_false_iff_not] at apart
  rcases apart with apart | apart
  · exact apart (first.1.trans second.2)
  · exact apart (second.1.trans first.2)

theorem checkApart_eq_ok {role otherRole : String} {block other : Bounds}
    (passed : checkApart role block otherRole other = .ok ()) : overlaps block other = false := by
  rw [checkApart] at passed
  split at passed
  · cases passed
  · rename_i apart
    exact Bool.eq_false_iff.mpr apart

theorem checkBurned_eq_ok {role : String} {block : Bounds}
    (passed : checkBurned role block taken = .ok ()) :
    ∀ span ∈ taken, overlaps block span = false := by
  rw [checkBurned] at passed
  split at passed
  · cases passed
  · rename_i nothing
    intro span mem
    exact Bool.eq_false_iff.mpr (List.find?_eq_none.mp nothing span mem)

theorem checkCeiling_eq_ok {hi : Int} (passed : checkCeiling hi = .ok ()) : hi ≤ seedCeiling := by
  rw [checkCeiling] at passed
  split at passed
  · cases passed
  · rename_i below
    exact not_lt.mp below

/-- What `allocate` found out before it returned. -/
structure Allocated (taken : List Bounds) (floor : Int) (pins : Pins) (blocks : Blocks) (lo : Int) :
    Prop where
  least : IsLeast {start | floor ≤ start ∧ Clear (calN + devN + heldoutN) taken start} lo
  ceiling : lo + (calN + devN + heldoutN) ≤ seedCeiling
  split : blocks = (autoBlocks lo (lo + (calN + devN + heldoutN))).pinned pins
  calDev : overlaps blocks.cal blocks.dev = false
  calHeldout : overlaps blocks.cal blocks.heldout = false
  devHeldout : overlaps blocks.dev blocks.heldout = false
  dev : ∀ span ∈ taken, overlaps blocks.dev span = false
  heldout : ∀ span ∈ taken, overlaps blocks.heldout span = false

theorem allocated_of_allocate {burned : List Block}
    (returned : allocate burned floor pins = .ok blocks) :
    ∃ lo, Allocated (burned.map (fun block => (block.lo, block.hi))) floor pins blocks lo := by
  unfold allocate at returned
  rcases of_bind returned with ⟨range, found, returned⟩
  rcases of_bind returned with ⟨_, ceiling, returned⟩
  rcases of_bind returned with ⟨_, calDev, returned⟩
  rcases of_bind returned with ⟨_, calHeldout, returned⟩
  rcases of_bind returned with ⟨_, devHeldout, returned⟩
  rcases of_bind returned with ⟨_, dev, returned⟩
  rcases of_bind returned with ⟨_, heldout, returned⟩
  have same := Except.ok.inj returned
  rcases isLeast_of_nextBlock found with ⟨_, size, least⟩
  rw [size] at same ceiling calDev calHeldout devHeldout dev heldout
  rw [same] at calDev calHeldout devHeldout dev heldout
  exact ⟨range.1, least, checkCeiling_eq_ok ceiling, same.symm, checkApart_eq_ok calDev,
    checkApart_eq_ok calHeldout, checkApart_eq_ok devHeldout, checkBurned_eq_ok dev,
    checkBurned_eq_ok heldout⟩

/-- What the blocks are for: no seed has two roles, no seed that gates was burned, the driver can
be seeded with every one, and without pins they are the lowest free range. -/
structure Usable (burned : List Block) (floor : Int) (pins : Pins) (blocks : Blocks) : Prop where
  calDev : ∀ seed ∈ seeds blocks.cal, seed ∉ seeds blocks.dev
  calHeldout : ∀ seed ∈ seeds blocks.cal, seed ∉ seeds blocks.heldout
  devHeldout : ∀ seed ∈ seeds blocks.dev, seed ∉ seeds blocks.heldout
  unburned : ∀ seed ∈ seeds blocks.dev ++ seeds blocks.heldout, ∀ block ∈ burned,
    ¬ (block.lo ≤ seed ∧ seed ≤ block.hi)
  ceiling : ∀ seed ∈ seeds blocks.cal ++ seeds blocks.dev ++ seeds blocks.heldout, seed ≤ seedCeiling
  tiled : pins.given = [] → ∃ lo,
    IsLeast {start | floor ≤ start ∧ Clear 650 (burned.map (fun block => (block.lo, block.hi))) start} lo ∧
      seeds blocks.cal ++ seeds blocks.dev ++ seeds blocks.heldout = seedRange lo (lo + 649)

theorem seedRange_append {low middle high : Int} (first : low ≤ middle + 1) (second : middle ≤ high) :
    seedRange low middle ++ seedRange (middle + 1) high = seedRange low high := by
  have count : (high + 1 - low).toNat =
      (middle + 1 - low).toNat + (high + 1 - (middle + 1)).toNat := by omega
  rw [seedRange, seedRange, seedRange, count, List.range_add, List.map_append, List.map_map]
  congr 1
  apply List.map_congr_left
  intro offset _
  simp only [Function.comp_apply]
  omega

theorem unburned_of_overlaps {burned : List Block} {mine : Bounds}
    (apart : ∀ span ∈ burned.map (fun block => (block.lo, block.hi)), overlaps mine span = false)
    {seed : Int} (mem : seed ∈ seeds mine) {block : Block} (listed : block ∈ burned) :
    ¬ (block.lo ≤ seed ∧ seed ≤ block.hi) := by
  intro hit
  have clear := apart (block.lo, block.hi) (List.mem_map_of_mem listed)
  exact seeds_disjoint clear mem (mem_seedRange.mpr hit)

theorem ceiling_of_part {pin : Option Bounds} {auto : Bounds} (below : auto.2 ≤ seedCeiling)
    (pinned : ∀ block ∈ pin.toList, block.1 ≤ block.2 → block.2 ≤ seedCeiling) {seed : Int}
    (mem : seed ∈ seeds (pin.getD auto)) : seed ≤ seedCeiling := by
  have bounds := mem_seedRange.mp mem
  cases pin with
  | none => exact bounds.2.trans below
  | some block => exact bounds.2.trans (pinned block (.head _) (bounds.1.trans bounds.2))

theorem Allocated.ceiling_of_pins (found : Allocated taken floor pins blocks lo)
    (pinned : ∀ pin ∈ pins.given, pin.1 ≤ pin.2 → pin.2 ≤ seedCeiling) {seed : Int}
    (mem : seed ∈ seeds blocks.cal ++ seeds blocks.dev ++ seeds blocks.heldout) :
    seed ≤ seedCeiling := by
  have reach := found.ceiling
  have sizes : 0 < calN ∧ 0 < devN ∧ 0 < heldoutN := by decide
  rw [found.split] at mem
  rcases List.mem_append.mp mem with mem | mem
  · rcases List.mem_append.mp mem with mem | mem
    · refine ceiling_of_part ?_ (fun block given => pinned block ?_) mem
      · change lo + calN - 1 ≤ seedCeiling
        omega
      · exact List.mem_append_left _ (List.mem_append_left _ given)
    · refine ceiling_of_part ?_ (fun block given => pinned block ?_) mem
      · change lo + calN + devN - 1 ≤ seedCeiling
        omega
      · exact List.mem_append_left _ (List.mem_append_right _ given)
  · refine ceiling_of_part ?_ (fun block given => pinned block ?_) mem
    · change lo + (calN + devN + heldoutN) - 1 ≤ seedCeiling
      omega
    · exact List.mem_append_right _ given

theorem Allocated.mem_of_pin (found : Allocated taken floor pins blocks lo) {pin : Bounds}
    (given : pin ∈ pins.given) {seed : Int} (mem : seed ∈ seeds pin) :
    seed ∈ seeds blocks.cal ++ seeds blocks.dev ++ seeds blocks.heldout := by
  rw [found.split]
  rcases List.mem_append.mp given with given | given
  · rcases List.mem_append.mp given with given | given
    · have part := Option.mem_toList.mp given
      apply List.mem_append_left
      apply List.mem_append_left
      rw [Blocks.pinned, part, Option.getD_some]
      exact mem
    · have part := Option.mem_toList.mp given
      apply List.mem_append_left
      apply List.mem_append_right
      rw [Blocks.pinned, part, Option.getD_some]
      exact mem
  · have part := Option.mem_toList.mp given
    apply List.mem_append_right
    rw [Blocks.pinned, part, Option.getD_some]
    exact mem

theorem Allocated.tiled (found : Allocated taken floor pins blocks lo)
    (unpinned : pins.given = []) :
    seeds blocks.cal ++ seeds blocks.dev ++ seeds blocks.heldout = seedRange lo (lo + 649) := by
  rw [Pins.given, List.append_eq_nil_iff, List.append_eq_nil_iff] at unpinned
  rcases unpinned with ⟨⟨cal, dev⟩, heldout⟩
  rw [Option.toList_eq_nil_iff] at cal dev heldout
  have whole : blocks = autoBlocks lo (lo + 650) := by
    rw [found.split, Blocks.pinned, cal, dev, heldout]
    rfl
  rw [whole]
  have cal : seeds (autoBlocks lo (lo + 650)).cal = seedRange lo (lo + 149) := by
    have last : lo + calN - 1 = lo + 149 := by
      rw [calN]
      omega
    exact congrArg (seedRange lo) last
  have dev : seeds (autoBlocks lo (lo + 650)).dev = seedRange (lo + 149 + 1) (lo + 449) := by
    have first : lo + calN = lo + 149 + 1 := by
      rw [calN]
      omega
    have last : lo + calN + devN - 1 = lo + 449 := by
      rw [calN, devN]
      omega
    exact congrArg₂ seedRange first last
  have heldout : seeds (autoBlocks lo (lo + 650)).heldout = seedRange (lo + 449 + 1) (lo + 649) := by
    have first : lo + calN + devN = lo + 449 + 1 := by
      rw [calN, devN]
      omega
    have last : lo + 650 - 1 = lo + 649 := by omega
    exact congrArg₂ seedRange first last
  rw [cal, dev, heldout]
  have calDev : seedRange lo (lo + 149) ++ seedRange (lo + 149 + 1) (lo + 449) =
      seedRange lo (lo + 449) := seedRange_append (by omega) (by omega)
  rw [calDev]
  exact seedRange_append (by omega) (by omega)

/-- The blocks are usable if every pinned block that holds a seed ends at the ceiling or before:
the ceiling is checked on the free range alone. -/
theorem allocate_usable_iff {burned : List Block} {floor : Int} {pins : Pins} {blocks : Blocks}
    (returned : allocate burned floor pins = .ok blocks) :
    Usable burned floor pins blocks ↔
      ∀ pin ∈ pins.given, pin.1 ≤ pin.2 → pin.2 ≤ seedCeiling := by
  rcases allocated_of_allocate returned with ⟨lo, found⟩
  constructor
  · intro usable pin given holds
    apply usable.ceiling
    exact found.mem_of_pin given (mem_seedRange.mpr ⟨holds, le_refl _⟩)
  · intro pinned
    refine ⟨fun _ member => seeds_disjoint found.calDev member,
      fun _ member => seeds_disjoint found.calHeldout member,
      fun _ member => seeds_disjoint found.devHeldout member, ?_,
      fun _ member => found.ceiling_of_pins pinned member,
      fun unpinned => ⟨lo, found.least, found.tiled unpinned⟩⟩
    intro seed member block listed
    rcases List.mem_append.mp member with gates | gates
    · exact unburned_of_overlaps found.dev gates listed
    · exact unburned_of_overlaps found.heldout gates listed

/-- A held-out block past the ceiling, where nothing was burned. -/
def farPins : Pins := ⟨none, none, some (600000, 600001)⟩

theorem allocate_farPins :
    allocate [] 0 farPins = .ok ⟨(0, 149), (150, 449), (600000, 600001)⟩ := rfl

/-- The pinned block is handed out. -/
theorem allocate_past_ceiling :
    ∃ blocks, allocate [] 0 farPins = .ok blocks ∧ ¬ Usable [] 0 farPins blocks := by
  refine ⟨_, allocate_farPins, fun usable => ?_⟩
  have high := usable.ceiling 600001 (List.mem_append_right _ (mem_seedRange.mpr (by decide)))
  exact absurd high (by decide)

/-- A campaign after burned blocks that overlap, given in no order. -/
def burnedTwice : List Block := [⟨700, 1000, "gate", ""⟩, ⟨0, 800, "gate", ""⟩, ⟨10, 20, "heldout", ""⟩]

theorem allocate_usable_after_burned :
    Usable burnedTwice 5 ⟨some (40, 30), none, none⟩
        ⟨(40, 30), (1151, 1450), (1451, 1650)⟩ ↔
      ∀ pin ∈ [((40 : Int), (30 : Int))], pin.1 ≤ pin.2 → pin.2 ≤ seedCeiling :=
  allocate_usable_iff (by decide +kernel)

end Scripts
end PhysicalHarness
