import Moonpool.Sim.Complete

/-!
Owns the runs of the simulated disks: everything processes, the runner and the random faults do
to them as one kind of action, and the disks any sequence of actions reaches.

An operation that fails leaves the disks as they were.  A crash whose oracle finds a synced
sector changed stops the simulation.
-/

namespace Moonpool.Sim

open Lib

namespace Storage

inductive Action where
  | openFile (owner : IpAddr) (path : Path) (options : OpenOptions) (initialSize : Nat)
      (fill : FillPattern) (directIoSupported : Bool)
  | createDirAll (owner : IpAddr) (path : Path)
  | deleteFile (owner : IpAddr) (path : Path)
  | renameFile (owner : IpAddr) (source target : Path)
  | syncDir (owner : IpAddr) (path : Path) (fails : Bool)
  | closeHandle (id : HandleId) (landing : Nat)
  | beginOperation (id : HandleId)
  | endOperation (id : HandleId)
  | read (file : FileId) (offset len : Nat) (eio : Bool) (drawn : Nat → Bool)
  | write (file : FileId) (offset : Nat) (data : List UInt8) (draws : WriteDraws)
  | sync (file : FileId) (fails violates : Bool) (lies : Nat → Bool)
  | setLen (file : FileId) (newLen : Nat) (full : Bool)
  | dropCache (file : FileId)
  | publishLayout (ip : IpAddr) (regions : List LayoutRegion)
  | declare (book : Option ShardBook)
  | setMask (mask : Path → Nat → Bool)
  | setFocus (ip : IpAddr) (focus : Option (Path → Nat → Bool))
  | failDisk (ip : IpAddr)
  | crash (ip : IpAddr) (closeFiles keepCache : Bool) (draws : StorageDraws)
  | wipe (ip : IpAddr)

def orElse (storage : Storage) (done : Except StorageError Storage) : Storage :=
  match done with
  | .ok next => next
  | .error _ => storage

def act [Crc32c] (storage : Storage) : Action → Except SimBug Storage
  | .openFile owner path options initialSize fill directIoSupported =>
    .ok (storage.orElse
      ((storage.openFile owner path options initialSize fill directIoSupported).map Prod.fst))
  | .createDirAll owner path => .ok (storage.orElse (storage.createDirAll owner path))
  | .deleteFile owner path => .ok (storage.orElse (storage.deleteFile owner path))
  | .renameFile owner source target => .ok (storage.orElse (storage.renameFile owner source target))
  | .syncDir owner path fails => .ok (storage.orElse (storage.syncDir owner path fails))
  | .closeHandle id landing => .ok (storage.closeHandle id landing)
  | .beginOperation id => .ok (storage.beginOperation id)
  | .endOperation id => .ok (storage.endOperation id)
  | .read file offset len eio drawn => .ok (storage.completeRead file offset len eio drawn)
  | .write file offset data draws => .ok (storage.completeWrite file offset data draws)
  | .sync file fails violates lies => .ok (storage.completeSync file fails violates lies)
  | .setLen file newLen full => .ok (storage.completeSetLen file newLen full)
  | .dropCache file => .ok (storage.alterImage file fun image => image.dropCache.1)
  | .publishLayout ip regions => .ok (storage.publishLayout ip regions)
  | .declare book => .ok { storage with shards := book }
  | .setMask mask => .ok { storage with mask }
  | .setFocus ip focus =>
    .ok { storage with
      focus := match focus with
        | some weight => storage.focus.insert ip weight
        | none => storage.focus.remove ip }
  | .failDisk ip => .ok (storage.failDisk ip)
  | .crash ip closeFiles keepCache draws => storage.crashProcess ip closeFiles keepCache draws
  | .wipe ip => .ok (storage.wipeProcess ip)

def acts [Crc32c] (storage : Storage) (actions : List Action) : Except SimBug Storage :=
  actions.foldlM act storage

def new (plans : List ReplicationPlan) (mask : Path → Nat → Bool)
    (focus : SortedMap IpAddr (Path → Nat → Bool)) : Storage where
  nextFileId := 0
  nextHandleId := 0
  files := .empty
  handles := .empty
  pathToFile := .empty
  durablePaths := .empty
  directories := .empty
  durableDirectories := .empty
  failedDisks := .empty
  layouts := .empty
  replication := plans.map .new
  shards := none
  mask := mask
  focus := focus
  barrierViolationArmed := false

/-- The disks reached from empty ones by actions that `allowed` admits where they are made. -/
inductive Reaches [Crc32c] (allowed : Storage → Action → Prop) : Storage → Prop where
  | new (plans : List ReplicationPlan) (mask : Path → Nat → Bool)
      (focus : SortedMap IpAddr (Path → Nat → Bool)) : Reaches allowed (.new plans mask focus)
  | act {storage next : Storage} {action : Action} : Reaches allowed storage →
      allowed storage action → storage.act action = .ok next → Reaches allowed next

/-- Every action of the list succeeds where it is made, and `allowed` admits it there. -/
def admits [Crc32c] (allowed : Storage → Action → Prop)
    [∀ storage action, Decidable (allowed storage action)] : Storage → List Action → Bool
  | _, [] => true
  | storage, action :: rest =>
    decide (allowed storage action) &&
      match storage.act action with
      | .ok next => admits allowed next rest
      | .error _ => false

theorem Reaches.acts [Crc32c] {allowed : Storage → Action → Prop}
    [∀ storage action, Decidable (allowed storage action)] {storage : Storage}
    (reaches : Reaches allowed storage) {actions : List Action}
    (admitted : storage.admits allowed actions = true) {next : Storage}
    (done : storage.acts actions = .ok next) : Reaches allowed next := by
  induction actions generalizing storage with
  | nil =>
    cases done
    exact reaches
  | cons action rest ih =>
    rw [admits, Bool.and_eq_true, decide_eq_true_eq] at admitted
    cases made : storage.act action with
    | error bug =>
      rw [made] at admitted
      cases admitted.2
    | ok reached =>
      rw [made] at admitted
      rw [Storage.acts, List.foldlM_cons, made] at done
      exact ih (reaches.act admitted.1 made) admitted.2 done

theorem exists_of_any {done : Except SimBug Storage} {test : Storage → Bool}
    (passes : done.toOption.any test = true) : ∃ storage, done = .ok storage ∧ test storage = true := by
  cases done with
  | error bug => cases passes
  | ok storage => exact ⟨storage, rfl, passes⟩

end Storage

end Moonpool.Sim
