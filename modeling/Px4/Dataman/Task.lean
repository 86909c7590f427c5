import Mathlib.Logic.Function.Basic
import Px4.Common.LittleEndian

/-!
# The dataman task

The messages between the dataman task and its clients, and how the request loop of `task_main` in
`src/modules/dataman/dataman.cpp` answers a request. The storage is an array of byte strings for
each item type; an operation on a medium that fails changes nothing.
-/

namespace Px4.Dataman

abbrev Bytes := List UInt8

inductive DmItem where
  | safePoints0
  | safePoints1
  | safePointsState
  | fencePoints0
  | fencePoints1
  | fencePointsState
  | waypointsOffboard0
  | waypointsOffboard1
  | missionState
  | compat
deriving DecidableEq

inductive DmFunction where
  | getId
  | write
  | read
  | clear
deriving DecidableEq

/-- `g_per_item_size`: the sizes of `mission_item_s`, `mission_stats_entry_s`,
`mission_fence_point_s`, `mission_s` and `dataman_compat_s`. -/
def perItemSize : DmItem → ℕ
  | .safePoints0 | .safePoints1 => 56
  | .safePointsState => 8
  | .fencePoints0 | .fencePoints1 => 32
  | .fencePointsState => 8
  | .waypointsOffboard0 | .waypointsOffboard1 => 56
  | .missionState => 40
  | .compat => 8

/-- `g_per_item_max_index`; the number of mission items is a build option. -/
def perItemMaxIndex (numMissionItems : ℕ) : DmItem → ℕ
  | .safePoints0 | .safePoints1 => 32
  | .safePointsState => 1
  | .fencePoints0 | .fencePoints1 => 64
  | .fencePointsState => 1
  | .waypointsOffboard0 | .waypointsOffboard1 => numMissionItems
  | .missionState => 1
  | .compat => 1

/-- The size of the field `data` of both messages. -/
def dataSize : ℕ := 56

theorem perItemSize_le_dataSize (item) : perItemSize item ≤ dataSize := by
  cases item <;> decide

theorem perItemSize_pos (item) : 0 < perItemSize item := by
  cases item <;> decide

def clientIdNotSet : UInt8 := 0

/-- `dataman_request_s`; `data` is what has been copied to the field. -/
structure Request where
  timestamp : UInt64
  clientId : UInt8
  requestType : DmFunction
  item : DmItem
  index : ℕ
  data : Bytes := []
  dataLength : ℕ := 0
deriving DecidableEq

/-- The bytes that a write request stores. -/
def Request.payload (request : Request) : Bytes :=
  request.data.take request.dataLength

/-- The values of `dataman_response_s::status`. -/
inductive Status where
  | success
  | failureIdErr
  | failureNoData
  | failureReadFailed
  | failureWriteFailed
  | failureClearFailed
deriving DecidableEq

structure Response where
  clientId : UInt8
  requestType : DmFunction
  item : DmItem
  index : ℕ
  status : Status
  data : Bytes
deriving DecidableEq

/-- `memcpy` of the first bytes. -/
def memcpy (dst src : Bytes) (length : ℕ) : Bytes :=
  src.take length ++ dst.drop length

variable {length : ℕ} {dst src : Bytes}

theorem take_memcpy (h : (src.take length).length = length) :
    (memcpy dst src length).take length = src.take length := by
  unfold memcpy
  rw [List.take_append_of_le_length (Nat.le_of_eq h.symm), List.take_take, Nat.min_self]

/-- Copy bytes to a field `data` that is zero. -/
def padded (bytes : Bytes) : Bytes :=
  bytes ++ List.replicate (dataSize - bytes.length) 0

/-! ## The storage -/

/-- What is stored for each index of each item, `[]` for nothing. -/
abbrev Store := DmItem → ℕ → Bytes

namespace Store

def E2BIG : ℤ := 7

/-- `g_dm_ops->write`. -/
def write (numMissionItems : ℕ) (store : Store) (item : DmItem) (index : ℕ) (buf : Bytes)
    (count : ℕ) (ok : Bool) : Store × ℤ :=
  if index ≥ perItemMaxIndex numMissionItems item then (store, -1)
  else if count > perItemSize item then (store, -E2BIG)
  else if ok then
    (Function.update store item (Function.update (store item) index (buf.take count)), count)
  else (store, -1)

/-- `g_dm_ops->read`, with the bytes that it copies. -/
def read (numMissionItems : ℕ) (store : Store) (item : DmItem) (index count : ℕ) (ok : Bool) :
    Bytes × ℤ :=
  if index ≥ perItemMaxIndex numMissionItems item then ([], -1)
  else if count > perItemSize item then ([], -E2BIG)
  else if ok then
    if (store item index).length > count then ([], -1)
    else (store item index, (store item index).length)
  else ([], -1)

/-- `g_dm_ops->clear`. -/
def clear (store : Store) (item : DmItem) (ok : Bool) : Store × ℤ :=
  if ok then (Function.update store item fun _ => [], 0) else (store, -1)

/-- What a client that copies all of an item reads from `data`. -/
def content (store : Store) (item : DmItem) (index : ℕ) : Bytes :=
  (padded (store item index)).take (perItemSize item)

end Store

/-! ## The request loop -/

/-- What the task has of the storage, and `dataman_clients_count`. -/
structure TaskData where
  store : Store := fun _ _ => []
  clientsCount : UInt8 := 1

namespace TaskData

/-- The response before the request is handled. -/
def blank (request : Request) : Response where
  clientId := request.clientId
  requestType := request.requestType
  item := request.item
  index := request.index
  status := .failureNoData
  data := padded []

/-- The `switch` on `request_type`. -/
def handle (numMissionItems : ℕ) (d : TaskData) (request : Request) (ok : Bool) :
    TaskData × Response :=
  match request.requestType with
  | .getId =>
    if d.clientsCount < 255 then
      ({ d with clientsCount := d.clientsCount + 1 },
        { blank request with
          clientId := d.clientsCount
          data := padded (LittleEndian.toBytes 8 request.timestamp.toNat) })
    else (d, blank request)
  | .write =>
    let result := d.store.write numMissionItems request.item request.index request.data
      request.dataLength ok
    ({ d with store := result.1 },
      { blank request with
        status := if result.2 > 0 then .success else .failureWriteFailed })
  | .read =>
    let result := d.store.read numMissionItems request.item request.index request.dataLength ok
    (d, { blank request with
      status := if result.2 ≥ 0 then .success else .failureReadFailed
      data := padded result.1 })
  | .clear =>
    let result := d.store.clear request.item ok
    ({ d with store := result.1 },
      { blank request with
        status := if result.2 = 0 then .success else .failureClearFailed })

end TaskData

end Px4.Dataman
