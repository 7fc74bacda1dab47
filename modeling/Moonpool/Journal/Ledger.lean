import Moonpool.Journal.Journal

/-!
Owns what a caller is owed: the value of every position, the floor and the metainfo, and
how an acknowledged batch changes them.
-/

namespace Moonpool.Journal

open Lib

abbrev Value : Type := Except ReadError Entry

def Write.apply (write : Write) (values : UInt64 → Value) (position : UInt64) : Value :=
  match write with
  | .put own id payload => if own = position then .ok ⟨position, id, payload⟩ else values position
  | .clear start stop _ =>
    if start ≤ position ∧ position < stop then .error (.empty position) else values position

def applyWrites (writes : List Write) (values : UInt64 → Value) : UInt64 → Value :=
  writes.foldl (fun values write => write.apply values) values

structure Ledger where
  values : UInt64 → Value
  floor : UInt64
  bytes : List UInt8

namespace Ledger

def fresh (bytes : List UInt8) : Ledger := ⟨fun position => .error (.empty position), 0, bytes⟩

def raised (ledger : Ledger) (batch : Batch) : UInt64 :=
  batch.floor.elim ledger.floor fun floor => max floor ledger.floor

def commit (ledger : Ledger) (batch : Batch) : Ledger where
  values := fun position =>
    if position < ledger.raised batch then .error (.empty position)
    else applyWrites batch.writes ledger.values position
  floor := ledger.raised batch
  bytes := batch.info.getD ledger.bytes

end Ledger

end Moonpool.Journal
