import AxelarRelayer.Storage.MemmapState

/-!
# The state file

What the file is for: three registers, each empty until it is set, that survive the
process (`Registers`). As long as the file is of the size of the struct, the cast is
one half of a round trip, so every call does to the bytes what it does to the
registers (`call_step`), and whole sequences of calls agree (`calls_agree`). A file
that is missing or too short is brought to that size when it is opened.

A file that is too long is accepted as it is, and the cast does not fit it: that is
when the accessors panic (`accessors_safe_iff`).
-/

namespace AxelarRelayer.Proof

open AxelarRelayer AxelarRelayer.Task AxelarRelayer.Storage Effect

/-! ## Three registers -/

/-- The purpose of the state file: the value last set for each cursor. -/
structure Registers where
  queried : Option TaskItemId
  processed : Option TaskItemId
  signature : Option Signature
deriving DecidableEq

namespace Registers

def empty : Registers := ⟨none, none, none⟩

/-- A register that is set to zero is empty again. -/
def ofTaskItemId (id : TaskItemId) : Option TaskItemId := if id.uuid = 0 then none else some id

def ofSignature (signature : Signature) : Option Signature :=
  if signature.bytes = Vector.replicate 64 0 then none else some signature

/-- A setter changes its own register, a getter none. -/
def apply (r : Registers) : Access → Registers
  | .setLatestQueriedTaskId id _ => { r with queried := ofTaskItemId id }
  | .setLatestProcessedTaskId id _ => { r with processed := ofTaskItemId id }
  | .setLatestProcessedSignature signature _ => { r with signature := ofSignature signature }
  | _ => r

/-- A getter returns its own register, a setter what its flush answers. -/
def answer (r : Registers) : Access → Answer
  | .latestQueriedTaskId => .taskId r.queried
  | .latestProcessedTaskId => .taskId r.processed
  | .latestProcessedSignature => .signature r.signature
  | .setLatestQueriedTaskId _ flush => .done flush
  | .setLatestProcessedTaskId _ flush => .done flush
  | .setLatestProcessedSignature _ flush => .done flush

/-- No other call touches a register. -/
def observe (r : Registers) : Call → Registers
  | .access _ access => r.apply access
  | _ => r

/-- The registers after some calls. -/
def after (r : Registers) (calls : List Call) : Registers := calls.foldl observe r

end Registers

/-! ## The round trip -/

theorem length_bytesOf (state : InternalState) : (bytesOf state).length = SIZE := by
  simp [bytesOf, SIZE]

theorem fromBytes_bytesOf (state : InternalState) : fromBytes (bytesOf state) = .ok state := by
  have htake : (bytesOf state).take 16 = LittleEndian.encode 16 state.latestQueriedTaskItemId.toNat := by
    rw [bytesOf, List.append_assoc, List.take_left' (LittleEndian.length_encode _ _)]
  have hdrop : (bytesOf state).drop 16 =
      LittleEndian.encode 16 state.latestProcessedTaskItemId.toNat ++
        state.latestProcessedSignature.toList := by
    rw [bytesOf, List.append_assoc, List.drop_left' (LittleEndian.length_encode _ _)]
  have hmiddle : ((bytesOf state).drop 16).take 16 =
      LittleEndian.encode 16 state.latestProcessedTaskItemId.toNat := by
    rw [hdrop, List.take_left' (LittleEndian.length_encode _ _)]
  have hlast : (bytesOf state).drop 32 = state.latestProcessedSignature.toList := by
    have htwice : (bytesOf state).drop 32 = ((bytesOf state).drop 16).drop 16 := by
      rw [List.drop_drop]
    rw [htwice, hdrop, List.drop_left' (LittleEndian.length_encode _ _)]
  have hid : ∀ id : BitVec 128,
      BitVec.ofNat 128 (LittleEndian.decode (LittleEndian.encode 16 id.toNat)) = id := by
    intro id
    have hfits : id.toNat < 256 ^ 16 := id.isLt
    rw [LittleEndian.decode_encode hfits, BitVec.ofNat_toNat, BitVec.setWidth_eq]
  rw [fromBytes, dif_pos (length_bytesOf state)]
  simp only [htake, hmiddle, hlast, hid, Vector.toList]

/-- The other half: bytes of the right length are those of what they are cast to. -/
theorem bytesOf_fromBytes {bytes : List UInt8} {state : InternalState}
    (h : fromBytes bytes = .ok state) : bytesOf state = bytes := by
  unfold fromBytes at h
  split at h
  · rename_i hlength
    obtain rfl := Except.ok.inj h
    have hid : ∀ field : List UInt8, field.length = 16 →
        LittleEndian.encode 16 (BitVec.ofNat 128 (LittleEndian.decode field)).toNat = field := by
      intro field hfield
      have hfits : LittleEndian.decode field < 2 ^ 128 := by
        have hlt := LittleEndian.decode_lt field
        rwa [hfield] at hlt
      rw [BitVec.toNat_ofNat, Nat.mod_eq_of_lt hfits, ← hfield, LittleEndian.encode_decode]
    rw [bytesOf, hid _ (by simp [hlength, SIZE]), hid _ (by simp [hlength, SIZE])]
    simp only [Vector.toList, List.append_assoc]
    have hrest : (bytes.drop 16).drop 16 = bytes.drop 32 := List.drop_drop
    rw [← hrest, List.take_append_drop, List.take_append_drop]
  · cases h

theorem exists_fromBytes {bytes : List UInt8} (h : bytes.length = SIZE) :
    ∃ state, fromBytes bytes = .ok state := by
  rw [fromBytes, dif_pos h]
  exact ⟨_, rfl⟩

/-! ## One access -/

/-- The registers that a struct stands for: zero stands for nothing. -/
def registersOf (state : InternalState) : Registers where
  queried := Registers.ofTaskItemId ⟨state.latestQueriedTaskItemId⟩
  processed := Registers.ofTaskItemId ⟨state.latestProcessedTaskItemId⟩
  signature := Registers.ofSignature ⟨state.latestProcessedSignature⟩

/-- What an access does to the struct. -/
def mutate (state : InternalState) : Access → InternalState
  | .setLatestQueriedTaskId id _ => { state with latestQueriedTaskItemId := id.uuid }
  | .setLatestProcessedTaskId id _ => { state with latestProcessedTaskItemId := id.uuid }
  | .setLatestProcessedSignature signature _ =>
      { state with latestProcessedSignature := signature.bytes }
  | _ => state

theorem registersOf_mutate (state : InternalState) (access : Access) :
    registersOf (mutate state access) = (registersOf state).apply access := by
  cases access <;> rfl

theorem lockedData_run (state : InternalState) :
    lockedData ⟨bytesOf state, false⟩ = .ok state ⟨bytesOf state, false⟩ := by
  simp only [lockedData, Bool.false_eq_true, if_false, fromBytes_bytesOf]

theorem getTaskItemId_run (state : InternalState) (field : InternalState → BitVec 128) :
    getTaskItemId field ⟨bytesOf state, false⟩ =
      .ok (Registers.ofTaskItemId ⟨field state⟩) ⟨bytesOf state, false⟩ := by
  rw [getTaskItemId, run_bind_ok _ (lockedData_run state), Registers.ofTaskItemId]
  by_cases hzero : field state = 0
  · rw [if_pos hzero, if_pos hzero]
    rfl
  · rw [if_neg hzero, if_neg hzero]
    rfl

theorem getSignature_run (state : InternalState) (field : InternalState → Vector UInt8 64) :
    getSignature field ⟨bytesOf state, false⟩ =
      .ok (Registers.ofSignature ⟨field state⟩) ⟨bytesOf state, false⟩ := by
  rw [getSignature, run_bind_ok _ (lockedData_run state), Registers.ofSignature]
  by_cases hzero : field state = Vector.replicate 64 0
  · rw [if_pos hzero, if_pos hzero]
    rfl
  · rw [if_neg hzero, if_neg hzero]
    rfl

theorem setField_run (state : InternalState) (flush : Except String Unit)
    (change : InternalState → InternalState) :
    setField flush change ⟨bytesOf state, false⟩ =
      .ok flush ⟨bytesOf (change state), false⟩ := by
  rw [setField, run_bind_ok _ (lockedData_run state)]
  rfl

/-- **One access**, on a map of the right size. -/
theorem access_run (state : InternalState) (access : Access) :
    access.run ⟨bytesOf state, false⟩ =
      .ok ((registersOf state).answer access) ⟨bytesOf (mutate state access), false⟩ := by
  cases access with
  | latestQueriedTaskId => exact run_bind_ok _ (getTaskItemId_run state _)
  | latestProcessedTaskId => exact run_bind_ok _ (getTaskItemId_run state _)
  | latestProcessedSignature => exact run_bind_ok _ (getSignature_run state _)
  | setLatestQueriedTaskId id flush => exact run_bind_ok _ (setField_run state flush _)
  | setLatestProcessedTaskId id flush => exact run_bind_ok _ (setField_run state flush _)
  | setLatestProcessedSignature signature flush => exact run_bind_ok _ (setField_run state flush _)

/-! ## Opening the file -/

/-- What a file holds once it was opened. -/
def sized (bytes : List UInt8) : List UInt8 :=
  if bytes.length < SIZE then bytesOf .default else bytes

theorem reset_ok {io : OpenIo} {bytes : List UInt8} {file file' : Option (List UInt8)} {u : Unit}
    (hshort : bytes.length < SIZE) (h : reset io bytes file = .ok u file') :
    file' = some (bytesOf .default) := by
  obtain ⟨_, _, hsetLen, h⟩ := run_bind_eq_ok h
  obtain ⟨_, file₁, hgrown, h⟩ := run_bind_eq_ok h
  obtain ⟨_, _, hseek, h⟩ := run_bind_eq_ok h
  have hgrownLength : (bytes ++ List.replicate (SIZE - bytes.length) 0).length ≤ SIZE := by
    rw [List.length_append, List.length_replicate]
    omega
  cases hwrite : io.writeAll with
  | error failure =>
      rw [hwrite] at h
      cases h
  | ok _ =>
      rw [hwrite] at h
      cases h
      rw [List.drop_eq_nil_of_le hgrownLength, List.append_nil]

/-- The part of `new` behind the resizing. -/
def mapFile (io : OpenIo) : EStateM String (Option (List UInt8)) MemmapState := do
  let file ← get
  Effect.ofExcept io.mapMut
  Effect.ofExcept io.flush
  return ⟨file.getD [], false⟩

theorem mapFile_ok {io : OpenIo} {file file' : Option (List UInt8)} {shared : MemmapState}
    (h : mapFile io file = .ok shared file') : shared = ⟨file.getD [], false⟩ := by
  obtain ⟨read, file₁, hget, h⟩ := run_bind_eq_ok h
  cases hget
  obtain ⟨_, file₂, -, h⟩ := run_bind_eq_ok h
  obtain ⟨_, file₃, -, h⟩ := run_bind_eq_ok h
  cases h
  rfl

theorem mapFile_error {io : OpenIo} {file file' : Option (List UInt8)} {text : String}
    (h : mapFile io file = .error text file') : file' = file := by
  rcases run_bind_eq_error h with hget | ⟨read, file₁, hget, h⟩
  · cases hget
  cases hget
  rcases run_bind_eq_error h with hmap | ⟨_, file₂, hmap, h⟩
  · exact (ofExcept_eq_error hmap).2
  obtain ⟨-, rfl⟩ := ofExcept_eq_ok hmap
  rcases run_bind_eq_error h with hflush | ⟨_, file₃, hflush, h⟩
  · exact (ofExcept_eq_error hflush).2
  cases h

/-- **A file that was opened** is mapped whole, and short ones were reset. -/
theorem new_ok {io : OpenIo} {file file' : Option (List UInt8)} {shared : MemmapState}
    (h : MemmapState.new io file = .ok shared file') :
    shared = ⟨sized (file.getD []), false⟩ := by
  obtain ⟨_, file₁, hopen, h⟩ := run_bind_eq_ok h
  obtain ⟨-, hsame⟩ := ofExcept_eq_ok hopen
  obtain ⟨bytes, file₂, hcreate, h⟩ := run_bind_eq_ok h
  rw [hsame] at hcreate
  cases hcreate
  obtain ⟨_, file₃, hmetadata, h⟩ := run_bind_eq_ok h
  obtain ⟨-, rfl⟩ := ofExcept_eq_ok hmetadata
  dsimp only at h
  rw [sized]
  by_cases hshort : (file.getD []).length < SIZE
  · rw [if_pos hshort] at h ⊢
    obtain ⟨_, file₄, hreset, h⟩ := run_bind_eq_ok h
    obtain rfl := reset_ok hshort hreset
    exact mapFile_ok h
  · rw [if_neg hshort] at h ⊢
    have hmapped : mapFile io (some (file.getD [])) = .ok shared file' := h
    have hshared := mapFile_ok hmapped
    exact hshared

/-- What a closed path holds: nothing yet, or the bytes of a struct. -/
def Holds (file : Option (List UInt8)) (r : Registers) : Prop :=
  (file.getD [] = [] ∧ r = .empty) ∨ ∃ state, file = some (bytesOf state) ∧ registersOf state = r

theorem holds_default : Holds (some (bytesOf .default)) .empty :=
  Or.inr ⟨.default, rfl, by decide⟩

/-- However resetting a file without bytes ends, the registers are empty. -/
theorem reset_empty {io : OpenIo} {file' : Option (List UInt8)}
    (h : stateOf (reset io [] (some [])) = file') : Holds file' .empty := by
  have hzero : [] ++ List.replicate (SIZE - ([] : List UInt8).length) (0 : UInt8) =
      bytesOf .default := by decide
  unfold reset at h
  dsimp only at h
  rw [hzero] at h
  cases hsetLen : io.setLen with
  | error text =>
      rw [hsetLen] at h
      exact Or.inl ⟨by rw [← h]; rfl, rfl⟩
  | ok u =>
      rw [hsetLen] at h
      cases hseek : io.seek with
      | error text =>
          rw [hseek] at h
          exact h ▸ holds_default
      | ok u =>
          rw [hseek] at h
          cases hwrite : io.writeAll with
          | ok u =>
              rw [hwrite] at h
              have hwhole : file' = some (bytesOf .default ++ (bytesOf .default).drop SIZE) := h.symm
              rw [hwhole, List.drop_eq_nil_of_le (Nat.le_of_eq (length_bytesOf _)), List.append_nil]
              exact holds_default
          | error failure =>
              rw [hwrite] at h
              -- a write that breaks off has written zeros over zeros
              have hpart : file' = some ((bytesOf .default).take failure.1 ++
                (bytesOf .default).drop failure.1) := h.symm
              rw [hpart, List.take_append_drop]
              exact holds_default

/-- An attempt to open the file that fails leaves the registers as they were. -/
theorem new_error {io : OpenIo} {file file' : Option (List UInt8)} {text : String} {r : Registers}
    (hholds : Holds file r) (h : MemmapState.new io file = .error text file') : Holds file' r := by
  have hcreated : Holds (some (file.getD [])) r := by
    rcases hholds with ⟨hempty, hr⟩ | ⟨state, rfl, hr⟩
    · exact Or.inl ⟨hempty, hr⟩
    · exact Or.inr ⟨state, rfl, hr⟩
  rcases run_bind_eq_error h with hopen | ⟨_, file₁, hopen, h⟩
  · exact (ofExcept_eq_error hopen).2 ▸ hholds
  obtain ⟨-, hsame⟩ := ofExcept_eq_ok hopen
  rcases run_bind_eq_error h with hcreate | ⟨bytes, file₂, hcreate, h⟩
  · cases hcreate
  rw [hsame] at hcreate
  cases hcreate
  rcases run_bind_eq_error h with hmetadata | ⟨_, file₃, hmetadata, h⟩
  · exact (ofExcept_eq_error hmetadata).2 ▸ hcreated
  obtain ⟨-, rfl⟩ := ofExcept_eq_ok hmetadata
  dsimp only at h
  by_cases hshort : (file.getD []).length < SIZE
  · -- a short file is one without bytes
    have hempty : file.getD [] = [] ∧ r = .empty := by
      rcases hholds with hempty | ⟨state, rfl, hr⟩
      · exact hempty
      · exact absurd hshort (Nat.not_lt.mpr (Nat.le_of_eq (length_bytesOf state).symm))
    obtain ⟨hnil, rfl⟩ := hempty
    rw [if_pos hshort] at h
    rcases run_bind_eq_error h with hreset | ⟨_, file₄, hreset, h⟩
    · rw [hnil] at hreset
      exact reset_empty (by rw [hreset, stateOf_error])
    · have hmapped : mapFile io file₄ = .error text file' := h
      rw [mapFile_error hmapped, reset_ok hshort hreset]
      exact holds_default
  · rw [if_neg hshort] at h
    have hmapped : mapFile io (some (file.getD [])) = .error text file' := h
    rw [mapFile_error hmapped]
    exact hcreated

/-! ## Sequences of calls -/

/-- The path stands for the registers. -/
def Represents : StateFile → Registers → Prop
  | .closed file, r => Holds file r
  | .opened shared _, r => ∃ state, shared = ⟨bytesOf state, false⟩ ∧ registersOf state = r

/-- An access answers what the registers answer, and no other call panics. -/
def Fits (r : Registers) : Call → Answer → Prop
  | .access _ access, answer => answer = r.answer access
  | _, answer => ∃ result, answer = .done result

theorem sized_represents {file : Option (List UInt8)} {r : Registers} (h : Holds file r) :
    ∃ state, (⟨sized (file.getD []), false⟩ : MemmapState) = ⟨bytesOf state, false⟩ ∧
      registersOf state = r := by
  rcases h with ⟨hempty, rfl⟩ | ⟨state, rfl, hr⟩
  · refine ⟨.default, ?_, by decide⟩
    rw [hempty]
    rfl
  · refine ⟨state, ?_, hr⟩
    have hlong : ¬ (bytesOf state).length < SIZE :=
      Nat.not_lt.mpr (Nat.le_of_eq (length_bytesOf state).symm)
    rw [Option.getD_some, sized, if_neg hlong]

/-- **One call** does to the file what it does to the registers. -/
theorem call_step {path path' : StateFile} {r : Registers} {call : Call} {answer : Answer}
    (h : Represents path r) (hcall : path.call call = some (path', answer)) :
    Represents path' (r.observe call) ∧ Fits r call answer := by
  cases path with
  | closed file =>
      cases call with
      | new io =>
          cases hnew : MemmapState.new io file with
          | ok shared file' =>
              rw [StateFile.call, hnew] at hcall
              cases hcall
              refine ⟨?_, _, rfl⟩
              -- a file that is too short is reset to empty registers
              have hshared := new_ok hnew
              rw [hshared]
              exact sized_represents h
          | error text file' =>
              rw [StateFile.call, hnew] at hcall
              cases hcall
              exact ⟨new_error h hnew, _, rfl⟩
      | clone handle => cases hcall
      | drop handle => cases hcall
      | access handle access => cases hcall
  | opened shared clones =>
      cases call with
      | new io => cases hcall
      | clone handle =>
          rw [StateFile.call] at hcall
          split at hcall
          · cases hcall
            exact ⟨h, _, rfl⟩
          · cases hcall
      | drop handle =>
          obtain ⟨state, rfl, hr⟩ := h
          unfold StateFile.call at hcall
          dsimp only at hcall
          split at hcall
          · cases clones with
            | zero =>
                cases hcall
                -- the last handle is gone: the mapping is in the file
                exact ⟨Or.inr ⟨state, rfl, hr⟩, _, rfl⟩
            | succ clones =>
                cases hcall
                exact ⟨⟨state, rfl, hr⟩, _, rfl⟩
          · cases hcall
      | access handle access =>
          obtain ⟨state, rfl, rfl⟩ := h
          rw [StateFile.call, access_run] at hcall
          split at hcall
          · cases hcall
            -- the accessor writes its register and answers from it
            exact ⟨⟨mutate state access, rfl, registersOf_mutate state access⟩, rfl⟩
          · cases hcall

/-- **A sequence of calls** answers what the registers answer, call by call. -/
theorem calls_agree {path path' : StateFile} {r : Registers} {calls : List Call}
    {answers : List Answer} (h : Represents path r)
    (hcalls : path.calls calls = some (path', answers)) (k : Nat) (call : Call) (answer : Answer)
    (hcall : calls[k]? = some call) (hanswer : answers[k]? = some answer) :
    Fits (r.after (calls.take k)) call answer := by
  induction calls generalizing path r answers k with
  | nil => cases hcall
  | cons first calls ih =>
      obtain ⟨⟨path₁, answer₁⟩, hfirst, hcalls⟩ := Option.bind_eq_some_iff.mp hcalls
      obtain ⟨⟨path₂, answers₂⟩, hrest, hcalls⟩ := Option.bind_eq_some_iff.mp hcalls
      obtain ⟨rfl, rfl⟩ := Prod.mk.inj (Option.some.inj hcalls)
      obtain ⟨hrepresents, hfits⟩ := call_step h hfirst
      cases k with
      | zero =>
          obtain rfl := Option.some.inj hcall
          obtain rfl := Option.some.inj hanswer
          exact hfits
      | succ k => exact ih hrepresents hrest k hcall hanswer

/-- Every call has its answer. -/
theorem length_answers {path path' : StateFile} {calls : List Call} {answers : List Answer}
    (hcalls : path.calls calls = some (path', answers)) : answers.length = calls.length := by
  induction calls generalizing path answers with
  | nil =>
      obtain ⟨-, rfl⟩ := Prod.mk.inj (Option.some.inj hcalls)
      rfl
  | cons first calls ih =>
      obtain ⟨⟨path₁, answer₁⟩, hfirst, hcalls⟩ := Option.bind_eq_some_iff.mp hcalls
      obtain ⟨⟨path₂, answers₂⟩, hrest, hcalls⟩ := Option.bind_eq_some_iff.mp hcalls
      obtain ⟨rfl, rfl⟩ := Prod.mk.inj (Option.some.inj hcalls)
      rw [List.length_cons, List.length_cons, ih hrest]

/--
**The state file is three persistent registers.** Starting from a missing file, in
every sequence of calls through any clones and any reopenings, every accessor
answers what three independent registers would.
-/
theorem state_file_registers (path : StateFile) (calls : List Call) (answers : List Answer)
    (hcalls : (StateFile.closed none).calls calls = some (path, answers)) (k handle : Nat)
    (access : Access) (hcall : calls[k]? = some (.access handle access)) :
    answers[k]? = some ((Registers.empty.after (calls.take k)).answer access) := by
  have hk : k < answers.length := by
    rw [length_answers hcalls]
    exact (List.getElem?_eq_some_iff.mp hcall).1
  have hmissing : Represents (.closed none) .empty := Or.inl ⟨rfl, rfl⟩
  have hfits := calls_agree hmissing hcalls k _ _ hcall (List.getElem?_eq_getElem hk)
  rw [List.getElem?_eq_getElem hk]
  exact congrArg some hfits

/-- Two cursors are set through two clones, the file is reopened, and both are read. -/
def cursorCalls : List Call :=
  [.new .works, .clone 0, .access 1 (.setLatestProcessedTaskId ⟨5⟩ (.ok ())),
    .access 0 (.setLatestProcessedSignature (.filled 3) (.ok ())), .drop 1, .drop 0,
    .new .works, .access 0 .latestProcessedTaskId, .access 0 .latestProcessedSignature,
    .access 0 .latestQueriedTaskId]

theorem cursors_survive : ∃ path answers, (StateFile.closed none).calls cursorCalls =
    some (path, answers) ∧ answers[7]? = some (.taskId (some ⟨5⟩)) ∧
      answers[8]? = some (.signature (some (.filled 3))) ∧ answers[9]? = some (.taskId none) := by
  have hsome : ((StateFile.closed none).calls cursorCalls).isSome = true := by decide +kernel
  obtain ⟨⟨path, answers⟩, hcalls⟩ := Option.isSome_iff_exists.mp hsome
  exact ⟨path, answers, hcalls,
    state_file_registers path cursorCalls answers hcalls 7 0 .latestProcessedTaskId rfl,
    state_file_registers path cursorCalls answers hcalls 8 0 .latestProcessedSignature rfl,
    state_file_registers path cursorCalls answers hcalls 9 0 .latestQueriedTaskId rfl⟩

/-! ## Files of any length -/

/-- No call panics. -/
def NeverPanics (path : StateFile) : Prop :=
  ∀ calls path' answers, path.calls calls = some (path', answers) → ∀ panic, .panicked panic ∉ answers

/-- The getters return the cursors of a struct. -/
def ReadsBack (shared : MemmapState) (state : InternalState) : Prop :=
  resultOf (latestQueriedTaskId shared) = .ok (registersOf state).queried ∧
    resultOf (latestProcessedTaskId shared) = .ok (registersOf state).processed ∧
      resultOf (latestProcessedSignature shared) = .ok (registersOf state).signature

/-- Whatever is opened of this content can be used, and a full file is read as it is. -/
def AccessorsSafe (bytes : List UInt8) : Prop :=
  ∀ io shared file', MemmapState.new io (some bytes) = .ok shared file' →
    NeverPanics (.opened shared 0) ∧ (SIZE ≤ bytes.length →
      ∃ state, fromBytes (bytes.take SIZE) = .ok state ∧ ReadsBack shared state)

theorem Fits.not_panicked {r : Registers} {call : Call} {panic : Panic} :
    ¬ Fits r call (.panicked panic) := by
  intro h
  cases call with
  | access handle access =>
      have hanswer : .panicked panic = r.answer access := h
      cases access <;> cases hanswer
  | new io =>
      obtain ⟨result, hdone⟩ := h
      cases hdone
  | clone handle =>
      obtain ⟨result, hdone⟩ := h
      cases hdone
  | drop handle =>
      obtain ⟨result, hdone⟩ := h
      cases hdone

theorem neverPanics {path : StateFile} {r : Registers} (h : Represents path r) :
    NeverPanics path := by
  intro calls path' answers hcalls panic hmem
  obtain ⟨k, hk⟩ := List.getElem?_of_mem hmem
  have hlt : k < calls.length := by
    rw [← length_answers hcalls]
    exact (List.getElem?_eq_some_iff.mp hk).1
  exact (calls_agree h hcalls k _ _ (List.getElem?_eq_getElem hlt) hk).not_panicked

/-- A map of the right size is read. -/
theorem readsBack_bytesOf (state : InternalState) : ReadsBack ⟨bytesOf state, false⟩ state := by
  refine ⟨?_, ?_, ?_⟩
  · rw [latestQueriedTaskId, getTaskItemId_run]
    rfl
  · rw [latestProcessedTaskId, getTaskItemId_run]
    rfl
  · rw [latestProcessedSignature, getSignature_run]
    rfl

/--
**When the accessors are safe.** Exactly when the file that is opened is no longer
than the struct.
-/
theorem accessors_safe_iff (bytes : List UInt8) : AccessorsSafe bytes ↔ bytes.length ≤ SIZE := by
  constructor
  · intro hsafe
    by_contra hlong
    have hnotShort : ¬ bytes.length < SIZE := by omega
    have hopened : MemmapState.new .works (some bytes) = .ok ⟨bytes, false⟩ (some bytes) := by
      change (if bytes.length < SIZE then _ else mapFile .works) (some bytes) = _
      rw [if_neg hnotShort]
      rfl
    have hcast : fromBytes bytes = .error ⟨"from_bytes>SizeMismatch"⟩ :=
      dif_neg fun hlength => hlong (Nat.le_of_eq hlength)
    have hread : Access.latestQueriedTaskId.run ⟨bytes, false⟩ =
        .error ⟨"from_bytes>SizeMismatch"⟩ ⟨bytes, true⟩ := by
      have hlocked : lockedData ⟨bytes, false⟩ =
          .error ⟨"from_bytes>SizeMismatch"⟩ ⟨bytes, true⟩ := by
        simp only [lockedData, Bool.false_eq_true, if_false, hcast]
      exact run_bind_error _ (run_bind_error _ hlocked)
    have hpanic : (StateFile.opened ⟨bytes, false⟩ 0).calls [.access 0 .latestQueriedTaskId] =
        some (.opened ⟨bytes, true⟩ 0, [.panicked ⟨"from_bytes>SizeMismatch"⟩]) := by
      have hcall : (StateFile.opened ⟨bytes, false⟩ 0).call (.access 0 .latestQueriedTaskId) =
          some (.opened ⟨bytes, true⟩ 0, .panicked ⟨"from_bytes>SizeMismatch"⟩) := by
        rw [StateFile.call, if_pos (Nat.le_refl 0), hread]
      rw [StateFile.calls, hcall]
      rfl
    exact (hsafe .works _ _ hopened).1 _ _ _ hpanic _ List.mem_cons_self
  · intro hle io shared file' hnew
    have hshared : shared = ⟨sized bytes, false⟩ := new_ok hnew
    by_cases hshort : bytes.length < SIZE
    · rw [sized, if_pos hshort] at hshared
      exact ⟨neverPanics ⟨.default, hshared, rfl⟩, fun h => absurd hshort (Nat.not_lt.mpr h)⟩
    · -- the file is a struct, and stands for what it is cast to
      have hlength : bytes.length = SIZE := by omega
      obtain ⟨state, hstate⟩ := exists_fromBytes hlength
      rw [sized, if_neg hshort, ← bytesOf_fromBytes hstate] at hshared
      refine ⟨neverPanics ⟨state, hshared, rfl⟩, fun _ => ⟨state, ?_, ?_⟩⟩
      · rw [List.take_of_length_le hle, hstate]
      · rw [hshared]
        exact readsBack_bytesOf state

/-- **A longer file** is opened, and the first getter panics. -/
theorem long_file_panics : ¬ ∀ bytes, AccessorsSafe bytes := by
  intro hall
  have hpanics : ((StateFile.opened ⟨List.replicate 97 0, false⟩ 0).calls
      [.access 0 .latestQueriedTaskId]).map Prod.snd =
        some [.panicked ⟨"from_bytes>SizeMismatch"⟩] := by decide +kernel
  obtain ⟨⟨path, answers⟩, hcalls, hanswers⟩ := Option.map_eq_some_iff.mp hpanics
  have hopened : MemmapState.new .works (some (List.replicate 97 0)) =
      .ok ⟨List.replicate 97 0, false⟩ (some (List.replicate 97 0)) := rfl
  refine (hall (List.replicate 97 0) .works _ _ hopened).1 _ path answers hcalls
    ⟨"from_bytes>SizeMismatch"⟩ ?_
  have hlisted : answers = [.panicked ⟨"from_bytes>SizeMismatch"⟩] := hanswers
  rw [hlisted]
  exact List.mem_cons_self

end AxelarRelayer.Proof
