import BcmDhd.Msgbuf.D2hRingDelivery

/-! The sequence numbers of a dongle to host ring: the host expects the epoch of
the next message, and skips through a batch that the read index has already
left behind.

The retries while a DMA transfer is under way are left out, and so are the
handlers of the messages. -/

namespace BcmDhd.Msgbuf

open BcmDhd.Lib

def d2hEpochModulo : BitVec 32 := 253

def d2hEpochInitVal : BitVec 32 := d2hEpochModulo + 1

def dhdProtFuncs : Nat := 37

def msgTypeInvalid : BitVec 8 := 0

/-- A message: its type, and its last word as the host sees it in the end. -/
structure D2hMsg where
  msgType : BitVec 8
  marker : BitVec 32
deriving DecidableEq

/-- A message whose marker never becomes the expected epoch is skipped. -/
def dhdProtD2hSyncSeqnum (seqnum : BitVec 32) (msg : D2hMsg) : BitVec 32 × BitVec 8 :=
  let ringSeqnum := seqnum % d2hEpochModulo
  if msg.marker = ringSeqnum then (seqnum + 1, msg.msgType) else (seqnum + 1, msgTypeInvalid)

/-- The loop over a batch. Each message comes with whether `hang_was_sent` is set
when its turn comes; the result is the new sequence number, the types that were
looked up in the table of handlers, and whether the loop ended well. -/
def processMsgs (itemLen : Nat) (bufLen : Int) (seqnum : BitVec 32) :
    List (Bool × D2hMsg) → BitVec 32 × List (BitVec 8) × Bool
  | [] => (seqnum, [], true)
  | (hangWasSent, msg) :: buf =>
    if bufLen ≤ 0 then (seqnum, [], true)
    else if hangWasSent then (seqnum, [], false)
    else
      let (seqnum, msgType) := dhdProtD2hSyncSeqnum seqnum msg
      if msgType.toNat ≥ dhdProtFuncs then (seqnum, [], false)
      else if bufLen < itemLen then (seqnum, [msgType], false)
      else
        let (seqnum, handled, ok) := processMsgs itemLen (bufLen - itemLen) seqnum buf
        (seqnum, msgType :: handled, ok)

/-- The length arrives as `uint32` and is counted down as `int`. -/
def dhdProtProcessMsgtype (itemLen : Nat) (seqnum : BitVec 32) (buf : List (Bool × D2hMsg))
    (len : Nat) : BitVec 32 × List (BitVec 8) × Bool :=
  if itemLen = 0 then (seqnum, [], false)
  else processMsgs itemLen (BitVec.ofNat 32 len).toInt seqnum buf

/-- A ring of messages with the sequence number the host expects, and the types
of the messages handled so far. -/
structure SeqnumSystem where
  d2h : D2hSystem D2hMsg
  seqnum : BitVec 32
  handled : List (BitVec 8)

/-- `hang` is the value of `hang_was_sent` at the turn of each message. -/
inductive SeqnumCall
  | dongleAppend (msg : D2hMsg)
  | processRing (hang : Nat → Bool)

/-- The messages the next batch hands to the host. -/
def nextBatch (d2h : D2hSystem D2hMsg) : List D2hMsg :=
  match dhdProtGetReadAddr d2h.ring d2h.dongleWr with
  | (_, none) => []
  | (ring, some (offset, len)) => (batchSlots ring.itemLen offset len).map d2h.memory

def withHang (hang : Nat → Bool) (batch : List D2hMsg) : List (Bool × D2hMsg) :=
  batch.mapIdx fun i msg => (hang i, msg)

/-- The epoch of the `k`-th message of a stream. -/
def d2hEpoch (k : Nat) : BitVec 32 := (d2hEpochInitVal + BitVec.ofNat 32 k) % d2hEpochModulo

/-- The dongle writes the epoch that is due; the message type is up to it. One
turn of the host's loop fetches a batch, which moves `rd`, and processes it. -/
def seqnumMachine : Machine SeqnumSystem SeqnumCall (Option Bool) where
  step system
    | .dongleAppend msg =>
      ({ system with d2h := (d2hMachine D2hMsg).next system.d2h (.dongleAppend msg) }, none)
    | .processRing hang =>
      let d2h := (d2hMachine D2hMsg).next system.d2h .getReadAddr
      match (d2hMachine D2hMsg).answer system.d2h .getReadAddr with
      | none => ({ system with d2h := d2h }, none)
      | some (_, len) =>
        let (seqnum, handled, ok) := dhdProtProcessMsgtype system.d2h.ring.itemLen system.seqnum
          (withHang hang (nextBatch system.d2h)) len
        ({ d2h := d2h, seqnum := seqnum, handled := system.handled ++ handled }, some ok)
  admits system
    | .dongleAppend msg =>
      (d2hMachine D2hMsg).admits system.d2h (.dongleAppend msg) ∧
        msg.marker = d2hEpoch system.d2h.produced.length
    | .processRing _ => True

def seqnumIdle (maxItems itemLen start : Nat) (memory : Nat → D2hMsg) : SeqnumSystem where
  d2h := d2hIdle maxItems itemLen start memory
  seqnum := d2hEpochInitVal
  handled := []

/-- The number of items by which `rd` has been advanced. -/
def SeqnumSystem.advanced (system : SeqnumSystem) : Nat := system.d2h.returned.flatten.length

/-- The hang flag is not seen, and before the last message no type is unknown. -/
def BatchCompletes (buf : List (Bool × D2hMsg)) : Prop :=
  (∀ entry ∈ buf, entry.1 = false) ∧
    ∀ entry ∈ buf.dropLast, entry.2.msgType.toNat < dhdProtFuncs

/-- The messages carry the epochs from the `k`-th on. -/
def EpochsFrom (k : Nat) (buf : List (Bool × D2hMsg)) : Prop :=
  ∀ i entry, buf[i]? = some entry → entry.2.marker = d2hEpoch (k + i)

def knownTypes (msgs : List D2hMsg) : List (BitVec 8) :=
  (msgs.map D2hMsg.msgType).filter fun msgType => msgType.toNat < dhdProtFuncs

section Loop

variable {itemLen k : Nat} {seqnum : BitVec 32} {buf : List (Bool × D2hMsg)}

theorem batchCompletes_nil : BatchCompletes [] := by
  constructor <;> simp

theorem batchCompletes_cons (hang : Bool) (msg : D2hMsg) (buf : List (Bool × D2hMsg)) :
    BatchCompletes ((hang, msg) :: buf) ↔
      hang = false ∧ (buf = [] ∨ msg.msgType.toNat < dhdProtFuncs) ∧ BatchCompletes buf := by
  cases buf with
  | nil => simp [BatchCompletes]
  | cons next rest => 
    simp only [BatchCompletes, List.dropLast_cons_cons, List.forall_mem_cons, reduceCtorEq, false_or]
    tauto

theorem epochsFrom_cons {hang : Bool} {msg : D2hMsg} (epochs : EpochsFrom k ((hang, msg) :: buf)) :
    msg.marker = d2hEpoch k ∧ EpochsFrom (k + 1) buf := by
  refine ⟨epochs 0 (hang, msg) rfl, fun i entry found => ?_⟩
  rw [Nat.add_assoc, Nat.add_comm 1 i]
  exact epochs (i + 1) entry found

/-- A loop over messages with the right epochs counts as many as it gets to: all
of them exactly if the batch completes, and then it handles all known types. -/
theorem processMsgs_spec (sized : 0 < itemLen) (epochs : EpochsFrom k buf)
    (expected : seqnum = d2hEpochInitVal + BitVec.ofNat 32 k) :
    ∃ count ≤ buf.length,
      (processMsgs itemLen ((buf.length * itemLen : Nat) : Int) seqnum buf).1 =
        d2hEpochInitVal + BitVec.ofNat 32 (k + count) ∧
      (count = buf.length ↔ BatchCompletes buf) ∧
      (BatchCompletes buf →
        (processMsgs itemLen ((buf.length * itemLen : Nat) : Int) seqnum buf).2.1 =
          knownTypes (buf.map Prod.snd)) := by
  induction buf generalizing seqnum k with
  | nil => exact ⟨0, le_rfl, expected, by simp [batchCompletes_nil], fun _ => rfl⟩
  | cons head rest ih =>
    obtain ⟨hang, msg⟩ := head
    obtain ⟨marker, later⟩ := epochsFrom_cons epochs
    have synced : dhdProtD2hSyncSeqnum seqnum msg = (seqnum + 1, msg.msgType) := by
      rw [dhdProtD2hSyncSeqnum, expected, marker]
      exact if_pos rfl
    have counted : seqnum + 1 = d2hEpochInitVal + BitVec.ofNat 32 (k + 1) := by
      rw [expected, BitVec.add_assoc, BitVec.ofNat_add]
      rfl
    have total : (((rest.length + 1) * itemLen : Nat) : Int) =
        ((rest.length * itemLen : Nat) : Int) + itemLen := by
      rw [Nat.succ_mul, Nat.cast_add]
    have positive : ¬ ((rest.length * itemLen : Nat) : Int) + itemLen ≤ 0 := by omega
    have enough : ¬ ((rest.length * itemLen : Nat) : Int) + itemLen < itemLen := by omega
    simp only [batchCompletes_cons, List.length_cons, total, processMsgs, if_neg positive, synced,
      if_neg enough, Int.add_sub_cancel]
    cases hang with
    | true => exact ⟨0, by omega, expected, by simp, by simp⟩
    | false =>
      by_cases known : msg.msgType.toNat < dhdProtFuncs
      · -- the rest of the batch decides
        obtain ⟨count, fits, reached, complete, handled⟩ := ih later counted
        refine ⟨count + 1, by omega, ?_, ?_, ?_⟩
        · simp only [Bool.false_eq_true, if_false, if_neg (Nat.not_le.mpr known), reached,
            Nat.add_assoc, Nat.add_comm 1 count]
        · simp [known, complete]
        · intro ⟨_, _, completes⟩
          simp only [Bool.false_eq_true, if_false, if_neg (Nat.not_le.mpr known), handled completes]
          simp [knownTypes, known]
      · -- an unknown type is counted, and nothing after it
        refine ⟨1, by omega, ?_, ?_, ?_⟩
        · simp only [Bool.false_eq_true, if_false, if_pos (Nat.not_lt.mp known), counted]
        · rw [eq_comm, Nat.add_eq_right, List.length_eq_zero_iff]
          constructor
          · intro last
            exact ⟨rfl, Or.inl last, last ▸ batchCompletes_nil⟩
          · intro ⟨_, last, _⟩
            exact last.resolve_right known
        · intro ⟨_, last, _⟩
          rw [last.resolve_right known]
          simp [knownTypes, known, Nat.not_lt.mp known]

end Loop

section Batches

variable {system : SeqnumSystem}

/-- A ring short enough for the `int` in which a batch is counted down, with the
right epochs on it, the host where `rd` says, and every known type handled. -/
structure SeqnumInvariant (start : Nat) (system : SeqnumSystem) : Prop where
  ring : D2hInvariant system.d2h
  short : system.d2h.ring.maxItems * system.d2h.ring.itemLen < 2 ^ 31
  epochs : ∀ k msg, system.d2h.produced[k]? = some msg → msg.marker = d2hEpoch k
  rd : system.d2h.ring.rd = (start + system.advanced) % system.d2h.ring.maxItems
  seqnum : system.seqnum = d2hEpochInitVal + BitVec.ofNat 32 system.advanced
  handled : system.handled = knownTypes system.d2h.returned.flatten

/-- What a turn of the host's loop finds: nothing, or the next messages of the
stream, which `rd` then leaves behind. -/
theorem fetch_cases (ring : D2hInvariant system.d2h) :
    (nextBatch system.d2h = [] ∧ (d2hMachine D2hMsg).answer system.d2h .getReadAddr = none ∧
      ((d2hMachine D2hMsg).next system.d2h .getReadAddr).returned = system.d2h.returned ∧
      ((d2hMachine D2hMsg).next system.d2h .getReadAddr).ring.rd = system.d2h.ring.rd) ∨
    ∃ offset, (nextBatch system.d2h).length ≤ system.d2h.ring.maxItems ∧
      (d2hMachine D2hMsg).answer system.d2h .getReadAddr =
        some (offset, (nextBatch system.d2h).length * system.d2h.ring.itemLen) ∧
      ((d2hMachine D2hMsg).next system.d2h .getReadAddr).returned =
        system.d2h.returned ++ [nextBatch system.d2h] ∧
      ((d2hMachine D2hMsg).next system.d2h .getReadAddr).ring.rd =
        (system.d2h.ring.rd + (nextBatch system.d2h).length) % system.d2h.ring.maxItems ∧
      nextBatch system.d2h = (system.d2h.produced.drop system.advanced).take
        (nextBatch system.d2h).length := by
  rcases ring.getReadAddr_cases with ⟨-, result⟩ | ⟨-, uncut, available, result⟩
  · left
    simp [nextBatch, Machine.answer, Machine.next, d2hMachine, result]
  · right
    have batch : nextBatch system.d2h =
        (List.range' system.d2h.ring.rd (batchSize system.d2h)).map system.d2h.memory := by
      simp only [nextBatch, result, ring.batchSlots_eq uncut, Circular.slots_eq_range uncut]
    have length : (nextBatch system.d2h).length = batchSize system.d2h := by simp [batch]
    have answered : (d2hMachine D2hMsg).answer system.d2h .getReadAddr =
        some (system.d2h.ring.rd * system.d2h.ring.itemLen,
          batchSize system.d2h * system.d2h.ring.itemLen) := by
      simp [Machine.answer, d2hMachine, result]
    obtain ⟨items, next⟩ := ring.nextBatch answered
    obtain rfl : batchSize system.d2h = items :=
      Nat.eq_of_mul_eq_mul_right ring.sized.1 next.len_eq
    refine ⟨_, by omega, by rw [answered, length], ?_, ?_, ?_⟩
    · rw [next.returned, batch]
    · simp [Machine.next, d2hMachine, result, length]
    · rw [length, batch]
      exact next.next

theorem fetch_kept (ring : D2hInvariant system.d2h) :
    ((d2hMachine D2hMsg).next system.d2h .getReadAddr).produced = system.d2h.produced ∧
      ((d2hMachine D2hMsg).next system.d2h .getReadAddr).ring.maxItems = system.d2h.ring.maxItems ∧
      ((d2hMachine D2hMsg).next system.d2h .getReadAddr).ring.itemLen = system.d2h.ring.itemLen := by
  rcases ring.getReadAddr_cases with ⟨-, result⟩ | ⟨-, -, -, result⟩
  · simp [Machine.next, d2hMachine, result]
  · simp [Machine.next, d2hMachine, result]

theorem seqnum_eq_iff {k count items : Nat} (fits : count ≤ items) (few : items < 2 ^ 32) :
    d2hEpochInitVal + BitVec.ofNat 32 (k + count) = d2hEpochInitVal + BitVec.ofNat 32 (k + items) ↔
      count = items := by
  rw [BitVec.add_right_inj, ← BitVec.toNat_inj, BitVec.toNat_ofNat, BitVec.toNat_ofNat, eq_comm,
    Circular.counters_eq_iff (by omega) (by omega)]
  omega

theorem dhdProtProcessMsgtype_eq {itemLen : Nat} (sized : 0 < itemLen) (seqnum : BitVec 32)
    (buf : List (Bool × D2hMsg)) (short : buf.length * itemLen < 2 ^ 31) :
    dhdProtProcessMsgtype itemLen seqnum buf (buf.length * itemLen) =
      processMsgs itemLen ((buf.length * itemLen : Nat) : Int) seqnum buf := by
  have counted : (BitVec.ofNat 32 (buf.length * itemLen)).toInt =
      ((buf.length * itemLen : Nat) : Int) := by
    rw [BitVec.toInt_eq_toNat_of_lt, BitVec.toNat_ofNat, Nat.mod_eq_of_lt (by omega)]
    rw [BitVec.toNat_ofNat, Nat.mod_eq_of_lt (by omega)]
    omega
  rw [dhdProtProcessMsgtype, if_neg (by omega), counted]

namespace SeqnumInvariant

variable {start : Nat}

theorem batch_epochs (valid : SeqnumInvariant start system) (hang : Nat → Bool) :
    EpochsFrom system.advanced (withHang hang (nextBatch system.d2h)) := by
  intro i entry found
  rw [withHang, List.getElem?_mapIdx, Option.map_eq_some_iff] at found
  obtain ⟨msg, found, rfl⟩ := found
  rcases fetch_cases valid.ring with ⟨empty, -⟩ | ⟨-, -, -, -, -, batch⟩
  · rw [empty] at found
    cases found
  · rw [batch, List.getElem?_take] at found
    split at found
    · rw [List.getElem?_drop] at found
      exact valid.epochs _ msg found
    · cases found

/-- One turn of the loop: the sequence number moves with `rd` exactly if the batch
completes. -/
theorem process (valid : SeqnumInvariant start system) (hang : Nat → Bool) :
    let next := seqnumMachine.next system (.processRing hang)
    (next.seqnum = d2hEpochInitVal + BitVec.ofNat 32 next.advanced ↔
      BatchCompletes (withHang hang (nextBatch system.d2h))) ∧
    (BatchCompletes (withHang hang (nextBatch system.d2h)) → SeqnumInvariant start next) := by
  intro next
  obtain ⟨produced, maxItems, itemLen⟩ := fetch_kept valid.ring
  have ring := valid.ring.fetch
  have short := valid.short
  rcases fetch_cases valid.ring with
    ⟨empty, answer, returned, rd⟩ | ⟨offset, few, answer, returned, rd, -⟩
  · have next_eq : next =
        { system with d2h := (d2hMachine D2hMsg).next system.d2h .getReadAddr } := by
      simp only [next, Machine.next, seqnumMachine, answer]
    have advanced : next.advanced = system.advanced := by
      rw [next_eq, SeqnumSystem.advanced, returned]
      rfl
    rw [empty]
    refine ⟨⟨fun _ => batchCompletes_nil, fun _ => ?_⟩, fun _ => ?_⟩
    · rw [advanced, next_eq]
      exact valid.seqnum
    · rw [next_eq] at advanced ⊢
      refine ⟨ring, by rw [maxItems, itemLen]; exact short, by rw [produced]; exact valid.epochs, ?_,
        by rw [advanced]; exact valid.seqnum, by rw [returned]; exact valid.handled⟩
      rw [rd, maxItems, advanced]
      exact valid.rd
  · have length : (withHang hang (nextBatch system.d2h)).length = (nextBatch system.d2h).length := by
      simp [withHang]
    have msgs : (withHang hang (nextBatch system.d2h)).map Prod.snd = nextBatch system.d2h := by
      apply List.ext_getElem
      · simp [withHang]
      · simp [withHang]
    have bytes : (nextBatch system.d2h).length * system.d2h.ring.itemLen < 2 ^ 31 :=
      lt_of_le_of_lt (Nat.mul_le_mul_right _ few) short
    have loop := dhdProtProcessMsgtype_eq valid.ring.sized.1 system.seqnum
      (withHang hang (nextBatch system.d2h)) (by rw [length]; exact bytes)
    obtain ⟨count, fits, reached, complete, handled⟩ :=
      processMsgs_spec valid.ring.sized.1 (valid.batch_epochs hang) valid.seqnum
    rw [← loop, length] at reached handled
    rw [length] at fits complete
    have narrow := valid.ring.narrow
    have next_eq : next =
        { d2h := (d2hMachine D2hMsg).next system.d2h .getReadAddr
          seqnum := d2hEpochInitVal + BitVec.ofNat 32 (system.advanced + count)
          handled := system.handled ++ (dhdProtProcessMsgtype system.d2h.ring.itemLen system.seqnum
            (withHang hang (nextBatch system.d2h))
            ((nextBatch system.d2h).length * system.d2h.ring.itemLen)).2.1 } := by
      rw [← reached]
      simp only [next, Machine.next, seqnumMachine, answer]
    have advanced : next.advanced = system.advanced + (nextBatch system.d2h).length := by
      rw [next_eq, SeqnumSystem.advanced, returned]
      simp [SeqnumSystem.advanced]
    have follows : next.seqnum = d2hEpochInitVal + BitVec.ofNat 32 next.advanced ↔
        count = (nextBatch system.d2h).length := by
      rw [advanced, next_eq]
      exact seqnum_eq_iff fits (by omega)
    refine ⟨follows.trans complete, fun completes => ?_⟩
    have seqnum := follows.mpr (complete.mpr completes)
    rw [next_eq] at seqnum advanced ⊢
    refine ⟨ring, by rw [maxItems, itemLen]; exact short, by rw [produced]; exact valid.epochs, ?_,
      seqnum, ?_⟩
    · rw [rd, maxItems, advanced, valid.rd, Nat.mod_add_mod, Nat.add_assoc]
    · rw [returned, handled completes, valid.handled, msgs]
      simp [knownTypes]

theorem append (valid : SeqnumInvariant start system) {msg : D2hMsg}
    (admitted : seqnumMachine.admits system (.dongleAppend msg)) :
    SeqnumInvariant start (seqnumMachine.next system (.dongleAppend msg)) := by
  obtain ⟨free, marker⟩ := admitted
  refine ⟨valid.ring.append msg free, valid.short, ?_, valid.rd, valid.seqnum, valid.handled⟩
  intro k other found
  rcases getElem?_concat_cases found with ⟨-, old⟩ | ⟨rfl, rfl⟩
  · exact valid.epochs k other old
  · exact marker

end SeqnumInvariant

end Batches

section Runs

/-- After the turn of the loop the sequence number is where `rd` is. -/
def SeqnumFollows (system : SeqnumSystem) : SeqnumCall → Prop
  | .processRing hang =>
    (seqnumMachine.next system (.processRing hang)).seqnum =
      d2hEpochInitVal + BitVec.ofNat 32 (seqnumMachine.next system (.processRing hang)).advanced
  | .dongleAppend _ => True

/-- The turn of the loop gets through its batch. -/
def GetsThrough (system : SeqnumSystem) : SeqnumCall → Prop
  | .processRing hang => BatchCompletes (withHang hang (nextBatch system.d2h))
  | .dongleAppend _ => True

theorem admitted_follows_iff {system : SeqnumSystem} {calls : List SeqnumCall}
    (admitted : seqnumMachine.Admitted system calls) :
    (seqnumMachine.restrict SeqnumFollows).Admitted system calls ↔
      ∀ past hang rest, calls = past ++ .processRing hang :: rest →
        (seqnumMachine.run system (past ++ [.processRing hang])).seqnum =
          d2hEpochInitVal + BitVec.ofNat 32
            (seqnumMachine.run system (past ++ [.processRing hang])).advanced := by
  simp only [Machine.admitted_restrict_iff, admitted, true_and, Machine.run_append]
  constructor
  · intro follows past hang rest split
    exact follows past (.processRing hang) rest split
  · intro follows past call rest split
    cases call with
    | processRing hang => exact follows past hang rest split
    | dongleAppend msg => trivial

theorem admitted_getsThrough_iff {system : SeqnumSystem} {calls : List SeqnumCall}
    (admitted : seqnumMachine.Admitted system calls) :
    (seqnumMachine.restrict GetsThrough).Admitted system calls ↔
      ∀ past hang rest, calls = past ++ .processRing hang :: rest →
        BatchCompletes (withHang hang (nextBatch (seqnumMachine.run system past).d2h)) := by
  simp only [Machine.admitted_restrict_iff, admitted, true_and]
  constructor
  · intro complete past hang rest split
    exact complete past (.processRing hang) rest split
  · intro complete past call rest split
    cases call with
    | processRing hang => exact complete past hang rest split
    | dongleAppend msg => trivial

theorem seqnumFollows_iff {start : Nat} {system : SeqnumSystem}
    (valid : SeqnumInvariant start system) (call : SeqnumCall) :
    SeqnumFollows system call ↔ GetsThrough system call := by
  cases call with
  | processRing hang => exact (valid.process hang).1
  | dongleAppend msg => exact Iff.rfl

theorem seqnumInvariant_preserved (start : Nat) :
    (seqnumMachine.restrict SeqnumFollows).Preserves (SeqnumInvariant start) := by
  intro system call valid admitted
  obtain ⟨accepted, follows⟩ := admitted
  cases call with
  | processRing hang => exact (valid.process hang).2 ((seqnumFollows_iff valid _).mp follows)
  | dongleAppend msg => exact valid.append accepted

theorem seqnumIdle_valid {maxItems itemLen start : Nat} (memory : Nat → D2hMsg)
    (inside : start < maxItems) (narrow : maxItems < 2 ^ 16)
    (sized : 0 < itemLen ∧ itemLen < 2 ^ 16) (short : maxItems * itemLen < 2 ^ 31) :
    SeqnumInvariant start (seqnumIdle maxItems itemLen start memory) where
  ring := d2hIdle_valid memory inside narrow sized
  short := short
  epochs := by
    intro k msg found
    cases found
  rd := (Nat.mod_eq_of_lt inside).symm
  seqnum := rfl
  handled := rfl

/-- In every run over messages with the right epochs and any types: after every
batch the sequence number is its initial value plus the items that `rd` has moved
by, exactly if in every batch no message but the last has an unknown type and the
hang flag is not seen; then every message of a known type has been handled. -/
theorem seqnum_follows_rd_iff {maxItems itemLen start : Nat} (memory : Nat → D2hMsg)
    (inside : start < maxItems) (narrow : maxItems < 2 ^ 16)
    (sized : 0 < itemLen ∧ itemLen < 2 ^ 16) (short : maxItems * itemLen < 2 ^ 31)
    {calls : List SeqnumCall}
    (admitted : seqnumMachine.Admitted (seqnumIdle maxItems itemLen start memory) calls) :
    let after := seqnumMachine.run (seqnumIdle maxItems itemLen start memory)
    let complete := ∀ past hang rest, calls = past ++ .processRing hang :: rest →
      BatchCompletes (withHang hang (nextBatch (after past).d2h))
    ((∀ past hang rest, calls = past ++ .processRing hang :: rest →
      (after (past ++ [.processRing hang])).seqnum =
        d2hEpochInitVal + BitVec.ofNat 32 (after (past ++ [.processRing hang])).advanced) ↔
      complete) ∧
    (complete →
      (after calls).d2h.ring.rd =
        (start + (after calls).advanced) % (after calls).d2h.ring.maxItems ∧
      (after calls).handled = knownTypes (after calls).d2h.returned.flatten) := by
  intro after complete
  have initial := seqnumIdle_valid memory inside narrow sized short
  have same : (seqnumMachine.restrict SeqnumFollows).Admitted
        (seqnumIdle maxItems itemLen start memory) calls ↔
      (seqnumMachine.restrict GetsThrough).Admitted (seqnumIdle maxItems itemLen start memory) calls :=
    seqnumMachine.admitted_restrict_congr (fun _ call valid _ => seqnumFollows_iff valid call)
      (seqnumInvariant_preserved start) initial
  have through := admitted_getsThrough_iff admitted
  refine ⟨(admitted_follows_iff admitted).symm.trans (same.trans through), fun done => ?_⟩
  have follows := same.mpr (through.mpr done)
  have reached := Machine.run_invariant _ (seqnumInvariant_preserved start) initial follows
  rw [Machine.restrict_run] at reached
  exact ⟨reached.rd, reached.handled⟩

/-- Two well-synchronised messages on a ring of four slots, the second of a type
that the table does not have. -/
theorem seqnum_follows_rd_unknown_last :
    let calls : List SeqnumCall :=
      [.dongleAppend ⟨5, d2hEpoch 0⟩, .dongleAppend ⟨200, d2hEpoch 1⟩, .processRing fun _ => false]
    let system := seqnumMachine.run (seqnumIdle 4 8 0 fun _ => ⟨0, 0⟩) calls
    seqnumMachine.Admitted (seqnumIdle 4 8 0 fun _ => ⟨0, 0⟩) calls ∧ system.advanced = 2 ∧
      system.handled = [5] ∧ system.seqnum = d2hEpochInitVal + BitVec.ofNat 32 2 := by
  intro calls system
  have admitted : seqnumMachine.Admitted (seqnumIdle 4 8 0 fun _ => ⟨0, 0⟩) calls :=
    ⟨⟨by decide, rfl⟩, ⟨by decide, rfl⟩, trivial, trivial⟩
  have complete : ∀ past hang rest, calls = past ++ .processRing hang :: rest →
      BatchCompletes (withHang hang (nextBatch
        (seqnumMachine.run (seqnumIdle 4 8 0 fun _ => ⟨0, 0⟩) past).d2h)) := by
    intro past hang rest split
    rcases past with _ | ⟨first, _ | ⟨second, _ | ⟨third, more⟩⟩⟩
    · simp [calls] at split
    · simp [calls] at split
    · obtain ⟨rfl, rfl, rfl⟩ : first = .dongleAppend ⟨5, d2hEpoch 0⟩ ∧
          second = .dongleAppend ⟨200, d2hEpoch 1⟩ ∧ hang = fun _ => false := by
        simp [calls] at split
        simp [split]
      refine ⟨?_, ?_⟩ <;> decide
    · simp [calls] at split
  have follows := (seqnum_follows_rd_iff (fun _ => ⟨0, 0⟩) (by decide) (by decide) (by decide)
    (by decide) admitted).1.mpr complete [.dongleAppend ⟨5, d2hEpoch 0⟩,
      .dongleAppend ⟨200, d2hEpoch 1⟩] (fun _ => false) [] rfl
  exact ⟨admitted, by decide, by decide, follows⟩

/-- The same two types the other way round: `rd` moves by both messages and the
sequence number by one, and the next message, well-synchronised and of a known
type, is taken for an invalid one. -/
theorem seqnum_lags_behind_rd :
    let batch : List SeqnumCall :=
      [.dongleAppend ⟨200, d2hEpoch 0⟩, .dongleAppend ⟨5, d2hEpoch 1⟩, .processRing fun _ => false]
    let calls := batch ++ [.dongleAppend ⟨5, d2hEpoch 2⟩, .processRing fun _ => false]
    let aborted := seqnumMachine.run (seqnumIdle 4 8 0 fun _ => ⟨0, 0⟩) batch
    seqnumMachine.Admitted (seqnumIdle 4 8 0 fun _ => ⟨0, 0⟩) calls ∧
      aborted.advanced = 2 ∧ aborted.seqnum ≠ d2hEpochInitVal + BitVec.ofNat 32 2 ∧
      (seqnumMachine.run (seqnumIdle 4 8 0 fun _ => ⟨0, 0⟩) calls).handled = [msgTypeInvalid] := by
  intro batch calls aborted
  refine ⟨⟨⟨by decide, rfl⟩, ⟨by decide, rfl⟩, trivial, ⟨by decide, by decide⟩, trivial, trivial⟩,
    by decide, by decide, by decide⟩

end Runs

end BcmDhd.Msgbuf
