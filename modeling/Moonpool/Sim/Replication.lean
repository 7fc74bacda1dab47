import Mathlib.Data.List.Lex
import Mathlib.Data.Char
import Mathlib.Data.List.Dedup
import Mathlib.Data.List.Sort
import Moonpool.Lib.SortedMap
import Moonpool.Sim.Image

/-!
Owns what processes publish about their disks and the replicated fault patterns over it
(`storage/replication.rs`): layouts, looked up by sector, and the plan that says which
sectors of which failure domain a random fault may damage.

Text is a list of characters and is ordered as such, which is the order of the bytes of its
encoding.  An address is a number: nothing here looks inside one.  The ids of a pattern's
domains only serve reports and are left out; a domain is its index.
-/

namespace Moonpool.Sim

open Lib List SortedMap

abbrev Text : Type := List Char

abbrev Path : Type := Text

abbrev IpAddr : Type := Nat

def dot : Path := ['.']

def dotDot : Path := ['.', '.']

def slash : Path := ['/']

/-- One component of a path: empty ones and `.` are dropped, `..` takes back the last one. -/
def foldPart (parts : List Path) (part : Path) : List Path :=
  if part = [] ∨ part = dot then parts
  else if part = dotDot then parts.dropLast
  else parts ++ [part]

def partsOf (path : Path) : List Path := (path.splitOn '/').foldl foldPart []

/-- A path with empty components and `.` dropped and `..` folded, without looking at any
disk. -/
def normalizePath (path : Path) : Path :=
  let joined := intercalate slash (partsOf path)
  if path.head? = some '/' then '/' :: joined else joined

theorem plain_of_mem_splitOn {raw component : Path} (member : component ∈ raw.splitOn '/') :
    '/' ∉ component := by
  induction raw generalizing component with
  | nil =>
    rw [mem_singleton.mp member]
    exact not_mem_nil
  | cons head rest ih =>
    rw [splitOn, splitOnP_cons_eq_if_modifyHead] at member
    split at member
    · rcases mem_cons.mp member with rfl | later
      · exact not_mem_nil
      · exact ih later
    next differs =>
      cases parts : rest.splitOnP (· == '/') with
      | nil =>
        rw [parts] at member
        cases member
      | cons first others =>
        have split {part : Path} (there : part ∈ first :: others) :
            part ∈ rest.splitOn '/' := by
          rw [splitOn, parts]
          exact there
        rw [parts, modifyHead_cons] at member
        rcases mem_cons.mp member with rfl | later
        · intro there
          rcases mem_cons.mp there with same | inside
          · simp [← same] at differs
          · exact ih (split mem_cons_self) inside
        · exact ih (split (mem_cons_of_mem _ later))

def Plain (part : Path) : Prop :=
  '/' ∉ part ∧ part ≠ [] ∧ part ≠ dot ∧ part ≠ dotDot

theorem plain_foldl_foldPart {given parts : List Path} (split : ∀ part ∈ given, '/' ∉ part)
    (plain : ∀ part ∈ parts, Plain part) : ∀ part ∈ given.foldl foldPart parts, Plain part := by
  induction given generalizing parts with
  | nil => exact plain
  | cons head rest ih =>
    refine ih (fun part member => split part (mem_cons_of_mem _ member)) ?_
    unfold foldPart
    split
    next => exact plain
    next kept =>
      split
      next => exact fun part member => plain part ((dropLast_sublist _).subset member)
      next notUp =>
        intro part member
        rcases mem_append.mp member with earlier | last
        · exact plain part earlier
        · rw [mem_singleton.mp last]
          rw [not_or] at kept
          exact ⟨split head mem_cons_self, kept.1, kept.2, notUp⟩

theorem plain_of_mem_partsOf {path part : Path} (member : part ∈ partsOf path) : Plain part :=
  plain_foldl_foldPart (fun _ there => plain_of_mem_splitOn there) (by simp) part member

theorem foldl_foldPart_of_plain {given : List Path} (plain : ∀ part ∈ given, Plain part)
    (parts : List Path) : given.foldl foldPart parts = parts ++ given := by
  induction given generalizing parts with
  | nil => exact (append_nil parts).symm
  | cons head rest ih =>
    obtain ⟨_, filled, notDot, notUp⟩ := plain head mem_cons_self
    have kept : foldPart parts head = parts ++ [head] := by
      rw [foldPart, if_neg (not_or.mpr ⟨filled, notDot⟩), if_neg notUp]
    rw [foldl_cons, kept,
      ih fun part member => plain part (mem_cons_of_mem _ member),
      append_assoc, singleton_append]

theorem partsOf_intercalate {parts : List Path} (plain : ∀ part ∈ parts, Plain part) :
    partsOf (intercalate slash parts) = parts := by
  cases parts with
  | nil => rfl
  | cons head rest =>
    have split : (intercalate slash (head :: rest)).splitOn '/' = head :: rest :=
      splitOn_intercalate '/' (fun part member => (plain part member).1)
        (cons_ne_nil head rest)
    rw [partsOf, split, foldl_foldPart_of_plain plain, nil_append]

theorem head_intercalate {parts : List Path} (plain : ∀ part ∈ parts, Plain part) :
    (intercalate slash parts).head? ≠ some '/' := by
  cases parts with
  | nil => exact nofun
  | cons head rest =>
    obtain ⟨split, filled, _, _⟩ := plain head mem_cons_self
    cases head with
    | nil => exact absurd rfl filled
    | cons first others =>
      have starts : (intercalate slash ((first :: others) :: rest)).head? = some first := by
        cases rest with
        | nil => rw [intercalate_singleton, head?_cons]
        | cons next later =>
          rw [intercalate_cons_cons, cons_append, cons_append, head?_cons]
      rw [starts]
      rintro ⟨rfl⟩
      exact split mem_cons_self

@[simp] theorem normalizePath_normalizePath (path : Path) :
    normalizePath (normalizePath path) = normalizePath path := by
  have plain : ∀ part ∈ partsOf path, Plain part := fun _ => plain_of_mem_partsOf
  unfold normalizePath
  by_cases absolute : path.head? = some '/'
  · have parts : partsOf ('/' :: intercalate slash (partsOf path)) = partsOf path := by
      exact partsOf_intercalate plain
    simp only [absolute, if_true, head?_cons, parts]
  · simp only [absolute, if_false, head_intercalate plain, partsOf_intercalate plain]

structure LayoutRegion where
  path : Path
  bytes : Span
  stripe : Option Nat
  shard : Option Text

structure Region where
  bytes : Span
  stripe : Option Nat
  shard : Option Text
deriving DecidableEq

abbrev Entry : Type := Option Nat × Option Text

def sectorSpan (sector : Nat) : Span := ⟨sector * sectorSize, (sector + 1) * sectorSize⟩

abbrev Regions : Type := SortedMap Path (List Region)

/-- One process's published layout: per path the sorted regions, and the length of the longest,
which bounds a lookup. -/
structure LayoutIndex where
  byPath : Regions
  longest : Nat
  sorted : ∀ {path ranges}, byPath.find path = some ranges →
    ranges.Pairwise fun first second => first.bytes.start ≤ second.bytes.start
  bounded : ∀ {path ranges}, byPath.find path = some ranges →
    ∀ region ∈ ranges, region.bytes.start < region.bytes.stop ∧ region.bytes.len ≤ longest
  normal : ∀ {path ranges}, byPath.find path = some ranges → normalizePath path = path

namespace LayoutIndex

variable (layout : LayoutIndex)

/-- Put a region among those of its path, after the ones that start where it does. -/
def place (region : Region) : List Region → List Region
  | [] => [region]
  | head :: rest =>
    if region.bytes.start < head.bytes.start then region :: head :: rest
    else head :: place region rest

theorem mem_place {region other : Region} {ranges : List Region} :
    other ∈ place region ranges ↔ other = region ∨ other ∈ ranges := by
  induction ranges with
  | nil => simp [place]
  | cons head rest ih =>
    rw [place]
    split
    · rw [mem_cons]
    · rw [mem_cons, ih, mem_cons]
      exact or_left_comm

theorem sorted_place (region : Region) {ranges : List Region}
    (sorted : ranges.Pairwise fun first second => first.bytes.start ≤ second.bytes.start) :
    (place region ranges).Pairwise fun first second => first.bytes.start ≤ second.bytes.start := by
  induction ranges with
  | nil => exact pairwise_singleton _ _
  | cons head rest ih =>
    obtain ⟨above, sortedRest⟩ := pairwise_cons.mp sorted
    rw [place]
    split
    next below =>
      refine pairwise_cons.mpr ⟨fun other member => ?_, sorted⟩
      rcases mem_cons.mp member with rfl | later
      · exact le_of_lt below
      · exact le_trans (le_of_lt below) (above other later)
    next notBelow =>
      refine pairwise_cons.mpr ⟨fun other member => ?_, ih sortedRest⟩
      rcases mem_place.mp member with rfl | later
      · exact Nat.le_of_not_lt notBelow
      · exact above other later

def empty : LayoutIndex :=
  { byPath := .empty
    longest := 0
    sorted := nofun
    bounded := nofun
    normal := fun found => by cases found }

def regions (path : Path) : List Region :=
  (layout.byPath.find (normalizePath path)).getD []

def add (published : LayoutRegion) : LayoutIndex :=
  if filled : published.bytes.start < published.bytes.stop then
    let path := normalizePath published.path
    let region : Region := ⟨published.bytes, published.stripe, published.shard⟩
    let ranges := (layout.byPath.find path).getD []
    { byPath := layout.byPath.insert path (place region ranges)
      longest := max layout.longest published.bytes.len
      sorted := by
        intro other found there
        rw [find_insert] at there
        split at there
        · cases there
          apply sorted_place
          cases old : layout.byPath.find path with
          | none => simp [ranges, old]
          | some list => simpa [ranges, old] using layout.sorted old
        · exact layout.sorted there
      bounded := by
        intro other found there one member
        rw [find_insert] at there
        split at there
        · cases there
          rcases mem_place.mp member with rfl | later
          · exact ⟨filled, le_max_right _ _⟩
          cases old : layout.byPath.find path with
          | none => simp [ranges, old] at later
          | some list =>
            obtain ⟨nonempty, short⟩ :=
              layout.bounded old one (by simpa [ranges, old] using later)
            exact ⟨nonempty, le_trans short (le_max_left _ _)⟩
        · obtain ⟨nonempty, short⟩ := layout.bounded there one member
          exact ⟨nonempty, le_trans short (le_max_left _ _)⟩
      normal := by
        intro other found there
        rw [find_insert] at there
        split at there
        next same =>
          rw [same]
          exact normalizePath_normalizePath published.path
        next => exact layout.normal there }
  else layout

def new (regions : List LayoutRegion) : LayoutIndex := regions.foldl add empty

def entriesIn (path : Path) (bytes : Span) : List Entry :=
  let floor := bytes.start - layout.longest
  let before := (layout.regions path).takeWhile fun region =>
    decide (region.bytes.start < bytes.stop)
  let near := before.reverse.takeWhile fun region => decide (floor ≤ region.bytes.start)
  (near.filter fun region => decide (bytes.start < region.bytes.stop)).map fun region =>
    (region.stripe, region.shard)

def entries (path : Path) (sector : Nat) : List Entry :=
  layout.entriesIn path (sectorSpan sector)

def covers (path : Path) (sector : Nat) : Bool :=
  !(layout.entries path sector).isEmpty

/-- The stripes of every region outside a shard sharing a byte with `sector`. -/
def stripes (path : Path) (sector : Nat) : List (Option Nat) :=
  ((layout.entries path sector).filter fun entry => entry.2.isNone).map Prod.fst

def sharded : List (Path × Region × Text) :=
  layout.byPath.entries.flatMap fun entry =>
    entry.2.filterMap fun region => region.shard.map fun shard => (entry.1, region, shard)

def shardKeys (path : Path) : List (Text × Option Nat) :=
  ((layout.regions path).filterMap fun region =>
    region.shard.map fun shard => (shard, region.stripe)).dedup

variable {layout : LayoutIndex} {path : Path} {region : Region}

end LayoutIndex

inductive FaultPattern where
  | minority
  /-- Every domain takes damage on the stripes its key rotates to, the marked ones anywhere. -/
  | striped
  | rolling
  /-- Fewer than two domains: no process takes damage. -/
  | spared
deriving DecidableEq

inductive PatternKind where
  | minority
  | striped
  | rolling
deriving DecidableEq

/-- One seed's plan for one group: the pattern, and each member's domain. -/
structure ReplicationPlan where
  pattern : FaultPattern
  tolerance : Nat
  domainOf : SortedMap IpAddr Nat
  /-- Whether each domain is damaged (a minority) or may be (a stripe rotation). -/
  marked : List Bool

namespace ReplicationPlan

variable (plan : ReplicationPlan)

/-- Mark `picks` domains drawn without replacement; `draws` gives the indices drawn. -/
def mark (draws : List Nat) : Nat → List Nat → List Bool → List Bool
  | 0, _, marked => marked
  | picks + 1, pool, marked =>
    let at' := draws.headD 0 % pool.length
    let domain := pool.getD at' 0
    -- `swap_remove`: the last one takes the place of the one drawn.
    let pool := (pool.set at' (pool.getLastD 0)).dropLast
    mark draws.tail picks pool (marked.set domain true)

def draw (tolerance : Nat) (localities : SortedMap IpAddr Text) (kind : PatternKind)
    (draws : List Nat) : ReplicationPlan :=
  let domains := (insertKeys .empty localities.values).keys
  let domainOf : SortedMap IpAddr Nat :=
    localities.entries.foldl
      (fun placed entry => match domains.idxOf? entry.2 with
        | some index => placed.insert entry.1 index
        | none => placed)
      .empty
  let unmarked := replicate domains.length false
  if domains.length < 2 then ⟨.spared, 0, domainOf, unmarked⟩
  else
    let tolerance := min tolerance (domains.length - 1)
    let pool := range domains.length
    match kind with
    | .rolling => ⟨.rolling, tolerance, domainOf, unmarked⟩
    | .striped => ⟨.striped, tolerance, domainOf, mark draws (tolerance - 1) pool unmarked⟩
    | .minority => ⟨.minority, tolerance, domainOf, mark draws tolerance pool unmarked⟩

def isRolling : Bool := plan.pattern = .rolling

def domain (ip : IpAddr) : Option Nat := plan.domainOf.find ip

def domainCount : Nat := plan.marked.length

/-- Whether `domain` is among the `tolerance` domains starting at `first` in rotation
order. -/
def within (domain first : Nat) : Bool :=
  let count := plan.domainCount
  let offset := (domain + count - first % count) % count
  decide (offset < plan.tolerance)

/-- Whether `stripe` rotates to `domain`: the `stripe mod n`-th of the `n` unmarked domains. -/
def rotatesTo (domain stripe : Nat) : Bool :=
  if plan.marked.getD domain false then false
  else
    let rotation := (plan.marked.filter fun marked => !marked).length
    let rank := ((plan.marked.take domain).filter fun marked => !marked).length
    decide (stripe % rotation = rank)

def inWindow (domain turn : Nat) : Bool := plan.within domain turn

def allows (owner : IpAddr) (layout : Option LayoutIndex) (path : Path)
    (sector turn : Nat) : Bool :=
  match plan.domain owner with
  | none => true
  | some domain =>
    match plan.pattern with
    | .spared => false
    | .minority => plan.marked.getD domain false
    | .rolling => plan.inWindow domain turn
    | .striped =>
      if plan.marked.getD domain false then true
      else
        let stripes := (layout.map fun layout => layout.stripes path sector).getD []
        -- Bytes this node alone holds, or never described, are spared.
        if stripes = [] ∨ none ∈ stripes then false
        else (stripes.filterMap id).all fun stripe => plan.rotatesTo domain stripe

end ReplicationPlan

end Moonpool.Sim
