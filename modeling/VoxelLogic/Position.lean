/-!
# Positions of pins

A module fills one voxel and carries its pins on the faces, edges and corners of the voxel, in its
centre, and on eight state slots that have no place in space.

A place in space is told by three coordinates, so a `Position.site` is a triple of a `Depth`, a
`Level` and a `Side`, and there are twenty-seven of them.  Its token spells the coordinates that
are not in the middle: `F` or `B`, then `L` or `R`, then `D` or `T`; the centre is `C`.  A slot is
written `S1` to `S8`.

* `Position.all`: the catalog.  Sites come first, by depth, then level, then side; slots follow.
* `Position.token`, `Position.ofToken?`: the written form and its reading, inverse to each other
  (`ofToken?_token`, `token_of_ofToken?`).
* `Position.index`, `Position.atIndex?`: the place of a position in the catalog
  (`atIndex?_index`, `index_of_atIndex?`).
-/

namespace VoxelLogic

/-- Where a site lies between the front and the back of the voxel. -/
inductive Depth where
  | front
  | middle
  | back
  deriving DecidableEq, Repr

/-- Where a site lies between the bottom and the top of the voxel. -/
inductive Level where
  | down
  | middle
  | top
  deriving DecidableEq, Repr

/-- Where a site lies between the left and the right of the voxel. -/
inductive Side where
  | left
  | middle
  | right
  deriving DecidableEq, Repr

/-- A place for a pin: a site of the voxel or a state slot. -/
inductive Position where
  | site (depth : Depth) (level : Level) (side : Side)
  | slot (number : Fin 8)
  deriving DecidableEq, Repr

namespace Depth

/-- The letter of a depth; the middle has none. -/
def letter : Depth → String
  | front => "F"
  | middle => ""
  | back => "B"

/-- Depths from front to back. -/
def all : List Depth := [front, middle, back]

/-- Depths counted from the front. -/
def index : Depth → Nat
  | front => 0
  | middle => 1
  | back => 2

end Depth

namespace Level

/-- The letter of a level; the middle has none. -/
def letter : Level → String
  | down => "D"
  | middle => ""
  | top => "T"

/-- Levels from the bottom up. -/
def all : List Level := [down, middle, top]

/-- Levels counted from the bottom. -/
def index : Level → Nat
  | down => 0
  | middle => 1
  | top => 2

end Level

namespace Side

/-- The letter of a side; the middle has none. -/
def letter : Side → String
  | left => "L"
  | middle => ""
  | right => "R"

/-- Sides from left to right. -/
def all : List Side := [left, middle, right]

/-- Sides counted from the left. -/
def index : Side → Nat
  | left => 0
  | middle => 1
  | right => 2

end Side

namespace Position

/-! ## The catalog -/

/-- Number of sites. -/
def siteCount : Nat := 27

/-- Number of positions in the catalog. -/
def count : Nat := 35

/-- The catalog: all positions, in the order in which records store them. -/
def all : List Position :=
  (Depth.all.flatMap fun d => Level.all.flatMap fun l => Side.all.map fun s => site d l s) ++
    (List.finRange 8).map slot

/-- The place of a position in the catalog, counted from zero. -/
def index : Position → Nat
  | site d l s => 9 * d.index + 3 * l.index + s.index
  | slot k => siteCount + k

/-- The position at a place of the catalog. -/
def atIndex? (i : Nat) : Option Position := all[i]?

/-- The state slots carry state; the sites do not. -/
def isState : Position → Bool
  | site .. => false
  | slot _ => true

/-- The places of the catalog that hold state slots. -/
def isStateIndex (i : Nat) : Bool := siteCount ≤ i && i < count

@[simp] theorem length_all : all.length = count := by decide

/-- The catalog is complete. -/
theorem mem_all (p : Position) : p ∈ all := by
  cases p with
  | site d l s => cases d <;> cases l <;> cases s <;> decide
  | slot k => revert k; decide

/-- No position stands twice in the catalog. -/
theorem nodup_all : all.Nodup := by decide

/-- A position is found at its own place. -/
theorem atIndex?_index (p : Position) : atIndex? p.index = some p := by
  have h : ∀ q ∈ all, atIndex? q.index = some q := by decide
  exact h p (mem_all p)

theorem index_lt_count (p : Position) : p.index < count := by
  have h : ∀ q ∈ all, q.index < count := by decide
  exact h p (mem_all p)

/-- A place holds the position that is counted to it. -/
theorem index_of_atIndex? {i : Nat} {p : Position} (h : atIndex? i = some p) : p.index = i := by
  have hi : i < all.length := (List.getElem?_eq_some_iff.1 h).1
  have hp : all[p.index]? = all[i]? := (atIndex?_index p).trans h.symm
  have hlt : p.index < all.length := by rw [length_all]; exact index_lt_count p
  exact (List.getElem?_inj hlt nodup_all).1 hp

/-- The state slots are the end of the catalog. -/
theorem isStateIndex_index (p : Position) : isStateIndex p.index = p.isState := by
  have h : ∀ q ∈ all, isStateIndex q.index = q.isState := by decide
  exact h p (mem_all p)

/-! ## The written form -/

/-- The written form of a position. -/
def token : Position → String
  | site .middle .middle .middle => "C"
  | site d l s => d.letter ++ s.letter ++ l.letter
  | slot k => "S" ++ String.singleton (Char.ofNat ('1'.toNat + k))

/-- Reads a position.  Letter case matters. -/
def ofToken? (text : String) : Option Position := all.find? fun p => p.token == text

@[simp] theorem ofToken?_token (p : Position) : ofToken? p.token = some p := by
  have h : ∀ q ∈ all, ofToken? q.token = some q := by decide
  exact h p (mem_all p)

/-- A text that reads as a position is its token. -/
theorem token_of_ofToken? {text : String} {p : Position} (h : ofToken? text = some p) :
    p.token = text := by
  simpa using List.find?_some h

/-- Positions are told apart by their tokens. -/
theorem token_injective {p q : Position} (h : p.token = q.token) : p = q := by
  have hp := ofToken?_token p
  rw [h, ofToken?_token q] at hp
  exact (Option.some.inj hp).symm

end Position

end VoxelLogic
