import AxelarRelayer.Task.World
import AxelarRelayer.Lib.LittleEndian

/-!
# `file-based-storage`

The three cursors of the relayer live in one file, which is mapped into memory and
read and written through a cast to `InternalState`. All clones of a `MemmapState`
share the map, and the file holds what the map holds.

`StateFile` is the path with whatever has it open: calls go through clones, clones are
made and dropped, and once the last one is gone the file can be opened again.
-/

namespace AxelarRelayer.Storage

open AxelarRelayer AxelarRelayer.Task

/-! ## The layout -/

/-- `InternalState`, which is `repr(C)`. -/
structure InternalState where
  latestQueriedTaskItemId : BitVec 128
  latestProcessedTaskItemId : BitVec 128
  latestProcessedSignature : Vector UInt8 64
deriving DecidableEq

/-- `InternalState::default`. -/
def InternalState.default : InternalState := ⟨0, 0, Vector.replicate 64 0⟩

/-- `size_of::<InternalState>()`: two `u128` and 64 bytes, without padding. -/
def SIZE : Nat := 16 + 16 + 64

/-- `bytemuck::bytes_of`, on a little-endian machine. -/
def bytesOf (state : InternalState) : List UInt8 :=
  LittleEndian.encode 16 state.latestQueriedTaskItemId.toNat ++
    LittleEndian.encode 16 state.latestProcessedTaskItemId.toNat ++
      state.latestProcessedSignature.toList

/-- `bytemuck::from_bytes`, which takes a slice of exactly the size of the type. -/
def fromBytes (bytes : List UInt8) : Except Panic InternalState :=
  if h : bytes.length = SIZE then
    .ok {
      latestQueriedTaskItemId := BitVec.ofNat 128 (LittleEndian.decode (bytes.take 16))
      latestProcessedTaskItemId := BitVec.ofNat 128 (LittleEndian.decode ((bytes.drop 16).take 16))
      latestProcessedSignature := ⟨(bytes.drop 32).toArray, by simp [h, SIZE]⟩ }
  else .error ⟨"from_bytes>SizeMismatch"⟩

/-! ## Opening the file -/

/-- What the operating system answers while a file is opened. -/
structure OpenIo where
  openFile : Except String Unit
  metadata : Except String Unit
  setLen : Except String Unit
  seek : Except String Unit
  /-- an error comes with the number of bytes written before it -/
  writeAll : Except (Nat × String) Unit
  mapMut : Except String Unit
  flush : Except String Unit

/-- Nothing fails. -/
def OpenIo.works : OpenIo := ⟨.ok (), .ok (), .ok (), .ok (), .ok (), .ok (), .ok ()⟩

/-- `MemmapState`: what its clones share. -/
structure MemmapState where
  mmap : List UInt8
  /-- a call panicked while it held the lock -/
  poisoned : Bool

/-- Extend a file that is too short and write the default state over it. -/
def reset (io : OpenIo) (bytes : List UInt8) : EStateM String (Option (List UInt8)) Unit := do
  Effect.ofExcept io.setLen
  let grown := bytes ++ List.replicate (SIZE - bytes.length) 0
  set (some grown)
  Effect.ofExcept io.seek
  match io.writeAll with
  | .ok _ => set (some (bytesOf .default ++ grown.drop SIZE))
  | .error (written, text) =>
      set (some ((bytesOf .default).take written ++ grown.drop written))
      throw text

/-- `MemmapState::new`; the state is the file at the path, if there is one. -/
def MemmapState.new (io : OpenIo) : EStateM String (Option (List UInt8)) MemmapState := do
  Effect.ofExcept io.openFile
  -- created if it is missing, never truncated
  let bytes ← modifyGet fun file => (file.getD [], some (file.getD []))
  Effect.ofExcept io.metadata
  if bytes.length < SIZE then reset io bytes
  let file ← get
  Effect.ofExcept io.mapMut
  Effect.ofExcept io.flush
  return ⟨file.getD [], false⟩

/-! ## The accessors -/

/-- Lock the map and cast it. -/
def lockedData : EStateM Panic MemmapState InternalState := fun st =>
  if st.poisoned then .error ⟨"lock should not be poisoned"⟩ st
  else match fromBytes st.mmap with
    | .ok data => .ok data st
    | .error panic => .error panic { st with poisoned := true }

/-- `get_task_item_id`. -/
def getTaskItemId (fieldAccessor : InternalState → BitVec 128) :
    EStateM Panic MemmapState (Option TaskItemId) := do
  let data ← lockedData
  let taskItemId := fieldAccessor data
  if taskItemId = 0 then return none else return some ⟨taskItemId⟩

/-- `get_signature`. -/
def getSignature (fieldAccessor : InternalState → Vector UInt8 64) :
    EStateM Panic MemmapState (Option Signature) := do
  let data ← lockedData
  let signature := fieldAccessor data
  if signature = Vector.replicate 64 0 then return none else return some ⟨signature⟩

/-- Change one field in the map and flush it. -/
def setField (flush : Except String Unit) (fieldMutator : InternalState → InternalState) :
    EStateM Panic MemmapState (Except String Unit) := do
  let data ← lockedData
  modify fun st => { st with mmap := bytesOf (fieldMutator data) }
  return flush

/-- `set_task_item_id`. -/
def setTaskItemId (flush : Except String Unit) (taskItemId : TaskItemId)
    (fieldMutator : InternalState → BitVec 128 → InternalState) :
    EStateM Panic MemmapState (Except String Unit) :=
  setField flush fun data => fieldMutator data taskItemId.uuid

/-- `set_signature`. -/
def setSignature (flush : Except String Unit) (signature : Signature)
    (fieldMutator : InternalState → Vector UInt8 64 → InternalState) :
    EStateM Panic MemmapState (Except String Unit) :=
  setField flush fun data => fieldMutator data signature.bytes

def latestQueriedTaskId : EStateM Panic MemmapState (Option TaskItemId) :=
  getTaskItemId InternalState.latestQueriedTaskItemId

def setLatestQueriedTaskId (flush : Except String Unit) (taskItemId : TaskItemId) :
    EStateM Panic MemmapState (Except String Unit) :=
  setTaskItemId flush taskItemId fun data value => { data with latestQueriedTaskItemId := value }

def latestProcessedTaskId : EStateM Panic MemmapState (Option TaskItemId) :=
  getTaskItemId InternalState.latestProcessedTaskItemId

def setLatestProcessedTaskId (flush : Except String Unit) (taskItemId : TaskItemId) :
    EStateM Panic MemmapState (Except String Unit) :=
  setTaskItemId flush taskItemId fun data value => { data with latestProcessedTaskItemId := value }

def latestProcessedSignature : EStateM Panic MemmapState (Option Signature) :=
  getSignature InternalState.latestProcessedSignature

def setLatestProcessedSignature (flush : Except String Unit) (signature : Signature) :
    EStateM Panic MemmapState (Except String Unit) :=
  setSignature flush signature fun data value => { data with latestProcessedSignature := value }

/-! ## Calls on a path -/

/-- The calls of `State` and `SolanaListenerState`; a setter with what its flush answers. -/
inductive Access where
  | latestQueriedTaskId
  | setLatestQueriedTaskId (taskItemId : TaskItemId) (flush : Except String Unit)
  | latestProcessedTaskId
  | setLatestProcessedTaskId (taskItemId : TaskItemId) (flush : Except String Unit)
  | latestProcessedSignature
  | setLatestProcessedSignature (signature : Signature) (flush : Except String Unit)

inductive Call where
  | new (io : OpenIo)
  | clone (handle : Nat)
  | drop (handle : Nat)
  | access (handle : Nat) (access : Access)

/-- What a call returns. -/
inductive Answer where
  | done (result : Except String Unit)
  | taskId (taskItemId : Option TaskItemId)
  | signature (signature : Option Signature)
  | panicked (panic : Panic)
deriving DecidableEq

def Access.run : Access → EStateM Panic MemmapState Answer
  | .latestQueriedTaskId => Answer.taskId <$> Storage.latestQueriedTaskId
  | .setLatestQueriedTaskId id flush => Answer.done <$> Storage.setLatestQueriedTaskId flush id
  | .latestProcessedTaskId => Answer.taskId <$> Storage.latestProcessedTaskId
  | .setLatestProcessedTaskId id flush => Answer.done <$> Storage.setLatestProcessedTaskId flush id
  | .latestProcessedSignature => Answer.signature <$> Storage.latestProcessedSignature
  | .setLatestProcessedSignature signature flush =>
      Answer.done <$> Storage.setLatestProcessedSignature flush signature

/-- The path: closed, with the file that is there, or open with one handle and its clones. -/
inductive StateFile where
  | closed (file : Option (List UInt8))
  | opened (shared : MemmapState) (clones : Nat)

/-- One call, if there is the handle for it. -/
def StateFile.call : StateFile → Call → Option (StateFile × Answer)
  | .closed file, .new io =>
      match MemmapState.new io file with
      | .ok shared _ => some (.opened shared 0, .done (.ok ()))
      | .error text file => some (.closed file, .done (.error text))
  | .opened shared clones, .clone handle =>
      if handle ≤ clones then some (.opened shared (clones + 1), .done (.ok ())) else none
  | .opened shared clones, .drop handle =>
      if handle ≤ clones then
        match clones with
        | 0 => some (.closed (some shared.mmap), .done (.ok ()))
        | clones + 1 => some (.opened shared clones, .done (.ok ()))
      else none
  | .opened shared clones, .access handle access =>
      if handle ≤ clones then
        match access.run shared with
        | .ok answer shared => some (.opened shared clones, answer)
        | .error panic shared => some (.opened shared clones, .panicked panic)
      else none
  | _, _ => none

/-- A sequence of calls and their answers. -/
def StateFile.calls : StateFile → List Call → Option (StateFile × List Answer)
  | file, [] => some (file, [])
  | file, call :: rest => do
      let (file, answer) ← file.call call
      let (file, answers) ← file.calls rest
      return (file, answer :: answers)

end AxelarRelayer.Storage
