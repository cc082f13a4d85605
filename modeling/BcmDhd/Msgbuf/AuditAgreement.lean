import BcmDhd.Msgbuf.AuditInvariant
import BcmDhd.Msgbuf.Completions

namespace BcmDhd.Msgbuf

open BcmDhd.Lib BcmDhd.Utils

/-- `count` keys were taken off the stack for buffers of one type. -/
structure Taken (pkttype : DhdPkttype) (count : Nat) (before after : DhdPktidMap) : Prop where
  items : after.items = before.items
  taken : ∀ i < count,
    (after.lockers (before.keys (before.avail - i))).state = .isBusy ∧
      (after.lockers (before.keys (before.avail - i))).pkttype = pkttype
  kept : ∀ pktid, (∀ i < count, before.keys (before.avail - i) ≠ pktid) →
    after.lockers pktid = before.lockers pktid

theorem Taken.none {pkttype : DhdPkttype} {before after : DhdPktidMap}
    (items : after.items = before.items) (lockers : after.lockers = before.lockers) :
    Taken pkttype 0 before after :=
  ⟨items, fun _ impossible => absurd impossible (Nat.not_lt_zero _), fun _ _ => by rw [lockers]⟩

section Posts

variable {dhd : DhdProt} {leaked : Finset Nat}

theorem nativeToPktid_cases (valid : AuditInvariant leaked dhd.pktidMap) (params : PktParams) :
    ∃ after posted, dhd.nativeToPktid params = (after, posted) ∧ after.busDown = dhd.busDown ∧
      ((posted = false ∧ dhd.pktidMap.avail = 0 ∧
          after.pktidMap = { dhd.pktidMap with failures := dhd.pktidMap.failures + 1 }) ∨
        (posted = true ∧ 0 < dhd.pktidMap.avail ∧
          after.pktidMap = (dhdPktidAudit (dhdPktidMapAlloc dhd.pktidMap params).1
            (dhd.pktidMap.keys dhd.pktidMap.avail) .duplicateAlloc).1)) := by
  rcases dhdPktidMapAlloc_cases valid.valid params with ⟨empty, refused⟩ | ⟨some, taken⟩
  · refine ⟨{ dhd with
        pktidMap := { dhd.pktidMap with failures := dhd.pktidMap.failures + 1 } },
      false, ?_, rfl, .inl ⟨rfl, empty, rfl⟩⟩
    simp only [DhdProt.nativeToPktid, refused, if_pos]
  · have notZero : dhd.pktidMap.keys dhd.pktidMap.avail ≠ dhdPktidInvalid :=
      Nat.ne_of_gt (valid.valid.top_free some).1
    refine ⟨{ dhd with
        pktidMap := (dhdPktidAudit (dhdPktidMapAlloc dhd.pktidMap params).1
          (dhd.pktidMap.keys dhd.pktidMap.avail) .duplicateAlloc).1 },
      true, ?_, rfl, .inr ⟨rfl, some, rfl⟩⟩
    simp only [DhdProt.nativeToPktid, taken, if_neg notZero]

theorem AuditInvariant.refused (valid : AuditInvariant leaked dhd.pktidMap) :
    AuditInvariant leaked { dhd.pktidMap with failures := dhd.pktidMap.failures + 1 } :=
  valid.sameOccupancy ⟨rfl, rfl, rfl, fun _ => rfl, rfl⟩

section

variable (valid : AuditInvariant leaked dhd.pktidMap)
include valid

theorem AuditInvariant.nativeToPktid
    (params : PktParams) : AuditInvariant leaked (dhd.nativeToPktid params).1.pktidMap := by
  obtain ⟨after, posted, result, -, outcome⟩ := nativeToPktid_cases valid params
  rw [result]
  rcases outcome with ⟨-, -, map⟩ | ⟨-, some, map⟩
  · rw [map]
    exact valid.refused
  · rw [map]
    exact valid.post some params

/-- The receive buffers: no post changes what is leaked. -/
theorem AuditInvariant.postRxBufs (slots : Nat)
    (bufs : List (Option RxBuf)) :
    AuditInvariant leaked (postRxBufs dhd slots bufs).1.pktidMap := by
  induction slots generalizing dhd bufs with
  | zero => exact valid
  | succ slots ih =>
    match bufs with
    | [] => exact valid
    | none :: rest => exact valid
    | some buf :: rest =>
      rw [Msgbuf.postRxBufs]
      split
      · exact valid
      · split
        · rename_i after refused
          rw [← congrArg (fun result => result.1.pktidMap) refused]
          exact valid.nativeToPktid _
        · rename_i after posted
          refine ih ?_ rest
          rw [← congrArg (fun result => result.1.pktidMap) posted]
          exact valid.nativeToPktid _

theorem AuditInvariant.rxbufPost (count : Nat)
    (burst : RxBurst) :
    AuditInvariant leaked (dhdProtRxbufPost dhd count burst).1.pktidMap := by
  unfold dhdProtRxbufPost
  split
  · exact valid
  · split
    · exact valid
    · exact valid.postRxBufs _ _

theorem AuditInvariant.postRxBursts (cnt : Nat)
    (bursts : List RxBurst) :
    AuditInvariant leaked (postRxBursts dhd cnt bursts).pktidMap := by
  induction cnt generalizing dhd bursts with
  | zero => exact valid
  | succ cnt ih =>
    match bursts with
    | [] => exact valid
    | burst :: rest =>
      have posted := valid.rxbufPost rxBufBurst burst
      rw [Msgbuf.postRxBursts]
      split
      · exact valid
      · split
        · rename_i after failed
          rw [failed] at posted
          exact posted
        · rename_i after retcount done
          rw [done] at posted
          refine ih ?_ rest
          exact posted

theorem AuditInvariant.returnRxbuf (rxcnt : Nat)
    (bursts : List RxBurst) :
    AuditInvariant leaked (dhdProtReturnRxbuf dhd rxcnt bursts).pktidMap := by
  unfold dhdProtReturnRxbuf
  generalize (if dhd.rxbufpost ≥ rxcnt then dhd.rxbufpost - rxcnt else 0) = left
  dsimp only
  split
  · refine AuditInvariant.postRxBursts ?_ 255 bursts
    exact valid
  · exact valid

end

/-- An attempt that gets as far as the packet id while the bus is up. -/
def CtrlAttempt.usable (attempt : CtrlAttempt) : Bool :=
  attempt.secdmaAvail && attempt.space && attempt.buf.any (·.pa ≠ 0)

/-- One attempt fails and hands out nothing, or posts a buffer of its type. -/
theorem dhdProtRxbufpostCtrl_cases (valid : AuditInvariant leaked dhd.pktidMap)
    (up : dhd.busDown = false) (eventBuf : Bool) (attempt : CtrlAttempt) :
    ∃ after posted, dhdProtRxbufpostCtrl dhd eventBuf attempt = (after, posted) ∧
      after.busDown = dhd.busDown ∧
      ((posted = false ∧ (attempt.usable = false ∨ dhd.pktidMap.avail = 0) ∧
          SameOccupancy dhd.pktidMap after.pktidMap ∧
          after.pktidMap.lockers = dhd.pktidMap.lockers) ∨
        (posted = true ∧ attempt.usable = true ∧ 0 < dhd.pktidMap.avail ∧
          ∃ params : PktParams, params.pkttype = ctrlPkttype eventBuf ∧
            after.pktidMap = (dhdPktidAudit (dhdPktidMapAlloc dhd.pktidMap params).1
              (dhd.pktidMap.keys dhd.pktidMap.avail) .duplicateAlloc).1)) := by
  have unchanged : SameOccupancy dhd.pktidMap dhd.pktidMap := ⟨rfl, rfl, rfl, fun _ => rfl, rfl⟩
  cases usable : attempt.usable with
  | false =>
    refine ⟨dhd, false, ?_, rfl, .inl ⟨rfl, .inl rfl, unchanged, rfl⟩⟩
    obtain ⟨secdmaAvail, buf, space⟩ := attempt
    cases buf with
    | none => simp [dhdProtRxbufpostCtrl]
    | some buf =>
      simp only [CtrlAttempt.usable, Option.any_some, Bool.and_eq_false_iff, ne_eq,
        decide_not, Bool.not_eq_false', decide_eq_true_eq, or_assoc] at usable
      rcases usable with rfl | rfl | zero
      · simp [dhdProtRxbufpostCtrl]
      · simp [dhdProtRxbufpostCtrl]
      · simp [dhdProtRxbufpostCtrl, zero]
  | true =>
    obtain ⟨secdmaAvail, buf, space⟩ := attempt
    simp only [CtrlAttempt.usable, Bool.and_eq_true, Option.any_eq_true, decide_eq_true_eq] at usable
    obtain ⟨⟨rfl, rfl⟩, buf, rfl, mapped⟩ := usable
    obtain ⟨after, posted, result, bus, outcome⟩ := nativeToPktid_cases valid
      { pkt := some buf.ptr
        pa := buf.pa
        len := buf.pktlen
        dir := dmaRx
        dmah := none
        secdma := dhd.ctrlSubnSecdma
        pkttype := ctrlPkttype eventBuf }
    refine ⟨after, posted, by simp [dhdProtRxbufpostCtrl, up, mapped, result], bus, ?_⟩
    rcases outcome with ⟨refused, empty, map⟩ | ⟨done, some, map⟩
    · exact .inl ⟨refused, .inr empty, map ▸ ⟨rfl, rfl, rfl, fun _ => rfl, rfl⟩, by rw [map]⟩
    · exact .inr ⟨done, rfl, some, _, rfl, map⟩

/-- One more post in front of `count` others. -/
theorem Taken.cons {pkttype : DhdPkttype} {count : Nat} {map after : DhdPktidMap}
    (valid : AuditInvariant leaked map) (some : 0 < map.avail) (few : count ≤ map.avail - 1)
    {params : PktParams} (own : params.pkttype = pkttype)
    (rest : Taken pkttype count
      (dhdPktidAudit (dhdPktidMapAlloc map params).1 (map.keys map.avail) .duplicateAlloc).1
      after) :
    Taken pkttype (count + 1) map after := by
  have posted := valid.post some params
  rw [valid.post_eq some] at rest posted
  have later : ∀ i < count, map.keys (map.avail - 1 - i) ≠ map.keys map.avail := by
    intro i below same
    have free := posted.valid.below_free (i := i) (by dsimp only; omega)
    dsimp only at free
    rw [same] at free
    simp [FreeKey, savedLocker] at free
  refine ⟨rest.items, fun i below => ?_, fun pktid apart => ?_⟩
  · cases i with
    | zero =>
      rw [Nat.sub_zero, rest.kept _ later]
      simp [savedLocker, own]
    | succ i =>
      have found := rest.taken i (by omega)
      dsimp only at found
      rwa [show map.avail - 1 - i = map.avail - (i + 1) by omega] at found
  · have unchanged := rest.kept pktid fun i below => by
      have other := apart (i + 1) (by omega)
      rwa [show map.avail - (i + 1) = map.avail - 1 - i by omega] at other
    have top := apart 0 (Nat.succ_pos _)
    rw [Nat.sub_zero] at top
    exact unchanged.trans (Function.update_of_ne (Ne.symm top) _ _)

/-- How many buffers the attempts come to, with `maxToPost` of them wanted. -/
def ctrlBufsTaken (dhd : DhdProt) (maxToPost : Nat) (attempts : List CtrlAttempt) : Nat :=
  if dhd.busDown then 0
  else min (min maxToPost dhd.pktidMap.avail) (attempts.takeWhile CtrlAttempt.usable).length

theorem ctrlBufsTaken_le (dhd : DhdProt) (maxToPost : Nat) (attempts : List CtrlAttempt) :
    ctrlBufsTaken dhd maxToPost attempts ≤ dhd.pktidMap.avail := by
  unfold ctrlBufsTaken
  split
  · exact Nat.zero_le _
  · omega

theorem ctrlBufsTaken_cons {after : DhdProt} {attempt : CtrlAttempt} (up : dhd.busDown = false)
    (bus : after.busDown = dhd.busDown) (usable : attempt.usable = true)
    (some : 0 < dhd.pktidMap.avail) (left : after.pktidMap.avail = dhd.pktidMap.avail - 1)
    (maxToPost : Nat) (rest : List CtrlAttempt) :
    ctrlBufsTaken dhd (maxToPost + 1) (attempt :: rest) =
      ctrlBufsTaken after maxToPost rest + 1 := by
  simp only [ctrlBufsTaken, up, bus, left, List.takeWhile_cons, usable, Bool.false_eq_true,
    if_false, if_true, List.length_cons]
  omega

theorem postCtrlBufs_spec (valid : AuditInvariant leaked dhd.pktidMap) (up : dhd.busDown = false)
    (eventBuf : Bool) (maxToPost : Nat) (attempts : List CtrlAttempt) :
    AuditInvariant leaked (postCtrlBufs dhd eventBuf maxToPost attempts).1.pktidMap ∧
      Taken (ctrlPkttype eventBuf) (ctrlBufsTaken dhd maxToPost attempts) dhd.pktidMap
        (postCtrlBufs dhd eventBuf maxToPost attempts).1.pktidMap := by
  induction maxToPost generalizing dhd attempts with
  | zero =>
    have nothing : ctrlBufsTaken dhd 0 attempts = 0 := by simp [ctrlBufsTaken]
    rw [nothing]
    exact ⟨valid, .none rfl rfl⟩
  | succ maxToPost ih =>
    cases attempts with
    | nil =>
      have nothing : ctrlBufsTaken dhd (maxToPost + 1) [] = 0 := by simp [ctrlBufsTaken]
      rw [nothing]
      exact ⟨valid, .none rfl rfl⟩
    | cons attempt rest =>
      obtain ⟨after, posted, result, bus, outcome⟩ :=
        dhdProtRxbufpostCtrl_cases valid up eventBuf attempt
      rw [postCtrlBufs, result]
      rcases outcome with ⟨rfl, unavailable, same, lockers⟩ | ⟨rfl, usable, some, params, own, map⟩
      · have nothing : ctrlBufsTaken dhd (maxToPost + 1) (attempt :: rest) = 0 := by
          rcases unavailable with useless | empty
          · simp [ctrlBufsTaken, useless]
          · simp [ctrlBufsTaken, empty]
        rw [nothing]
        exact ⟨valid.sameOccupancy same, .none same.items lockers⟩
      · have marked : AuditInvariant leaked after.pktidMap := by
          rw [map]
          exact valid.post some params
        have left : after.pktidMap.avail = dhd.pktidMap.avail - 1 := by
          rw [map, valid.post_eq some]
        have few := ctrlBufsTaken_le after maxToPost rest
        rw [left] at few
        obtain ⟨kept, taken⟩ := ih marked (bus.trans up) rest
        rw [map] at taken
        rw [ctrlBufsTaken_cons up bus usable some left]
        exact ⟨kept, .cons valid some few own taken⟩

theorem eventBufs_spec (valid : AuditInvariant leaked dhd.pktidMap) (attempts : List CtrlAttempt) :
    AuditInvariant leaked (dhdMsgbufRxbufPostEventBufs dhd attempts).pktidMap ∧
      Taken .eventRx
        (ctrlBufsTaken dhd (dhd.maxEventbufpost - dhd.curEventBufsPosted) attempts)
        dhd.pktidMap (dhdMsgbufRxbufPostEventBufs dhd attempts).pktidMap := by
  simp only [dhdMsgbufRxbufPostEventBufs, dhdMsgbufRxbufPostCtrlpath]
  cases up : dhd.busDown with
  | true =>
    have nothing :
        ctrlBufsTaken dhd (dhd.maxEventbufpost - dhd.curEventBufsPosted) attempts = 0 := by
      simp [ctrlBufsTaken, up]
    rw [nothing]
    exact ⟨valid, .none rfl rfl⟩
  | false => exact postCtrlBufs_spec valid up true _ attempts

theorem AuditInvariant.ioctlrespBufs (valid : AuditInvariant leaked dhd.pktidMap)
    (attempts : List CtrlAttempt) :
    AuditInvariant leaked (dhdMsgbufRxbufPostIoctlrespBufs dhd attempts).pktidMap := by
  simp only [dhdMsgbufRxbufPostIoctlrespBufs, dhdMsgbufRxbufPostCtrlpath]
  cases up : dhd.busDown with
  | true => exact valid
  | false => exact (postCtrlBufs_spec valid up false _ attempts).1

theorem AuditInvariant.waitIoctlCmplt (valid : AuditInvariant leaked dhd.pktidMap) (reset : Bool)
    (attempts : List CtrlAttempt) :
    AuditInvariant leaked (dhd.waitIoctlCmplt reset attempts).pktidMap := by
  unfold DhdProt.waitIoctlCmplt
  split
  · exact valid
  · refine AuditInvariant.ioctlrespBufs ?_ attempts
    exact valid

end Posts

section Transmit

variable {dhd : TxProt} {leaked : Finset Nat}

theorem dhdProtTxdataWriteFlush_pktidMap (dhd : TxProt) (flowid : Nat) :
    (dhdProtTxdataWriteFlush dhd flowid).pktidMap = dhd.pktidMap := by
  unfold dhdProtTxdataWriteFlush
  split
  · rfl
  · rfl

/-- Whatever the rings do, a packet keeps its id with a mark or gives it back. -/
theorem AuditInvariant.txdata (valid : AuditInvariant leaked dhd.pktidMap) (pkt : TxPkt)
    (ifidx : Nat) (secdmaAvail : Bool) :
    AuditInvariant leaked (dhdProtTxdata dhd pkt ifidx secdmaAvail).1.pktidMap := by
  unfold dhdProtTxdata
  split
  · exact valid
  · rename_i table attached
    have restored := reserve_free_occupancy valid.valid (some pkt.ptr)
    rcases dhdPktidMapReserve_cases dhd.pktidMap (some pkt.ptr) with ⟨-, refused⟩ | ⟨some, taken⟩
    · rw [refused]
      dsimp only
      rw [if_pos rfl]
      exact valid.sameOccupancy ⟨rfl, rfl, rfl, fun _ => rfl, rfl⟩
    · have notZero : dhd.pktidMap.keys dhd.pktidMap.avail ≠ dhdPktidInvalid :=
        Nat.ne_of_gt (valid.valid.top_free some).1
      rw [taken] at restored ⊢
      have restored := valid.sameOccupancy (restored notZero)
      have posted := valid.post some (txParams (table pkt.flowid) pkt)
      have saved : (dhdPktidMapAlloc dhd.pktidMap (txParams (table pkt.flowid) pkt)).1 =
          dhdPktidMapSave (dhdPktidMapReserve dhd.pktidMap (Option.some pkt.ptr)).1
            (dhd.pktidMap.keys dhd.pktidMap.avail) (txParams (table pkt.flowid) pkt) := by
        simp [dhdPktidMapAlloc, txParams, taken, notZero]
      rw [saved, taken] at posted
      dsimp only at restored posted ⊢
      rw [if_neg notZero]
      split
      · exact restored
      · split
        · dsimp only
          split
          · rw [dhdProtTxdataWriteFlush_pktidMap]
            exact posted
          · exact posted
        · exact restored

end Transmit

/-- A handler leaves the map in agreement exactly under a condition. -/
structure Settles (after : DhdPktidMap) (condition : Prop) : Prop where
  agrees : AuditAgrees after ↔ condition
  clean : condition → AuditInvariant ∅ after

theorem AuditInvariant.settles {map : DhdPktidMap} {leaked : Finset Nat} {condition : Prop}
    (valid : AuditInvariant leaked map) (clean : leaked = ∅ ↔ condition) :
    Settles map condition := by
  refine ⟨valid.agrees_iff.trans clean, fun met => ?_⟩
  rw [← clean.mpr met]
  exact valid

/-- The event buffers that the handler of an event posts. -/
def eventBufsTaken (dhd : DhdProt) (attempts : List CtrlAttempt) : Nat :=
  ctrlBufsTaken dhd (dhd.maxEventbufpost - (dhd.curEventBufsPosted - 1)) attempts

/-- The completions that return the buffer they name: an id in use is of the type
of the completion, an IOCTL completion for it is expected, and an event does not
name a free id that is handed out again before its locker is opened. -/
def CompletesOwn (dhd : DhdProt) : HandlerCall → Prop
  | .ioctcmplt msg =>
    OwnType dhd.pktidMap msg.requestId .ioctlRx ∧
      (Posted dhd.pktidMap msg.requestId → ¬ dhd.notExpecting)
  | .txstatus requestId => OwnType dhd.pktidMap requestId .dataTx
  | .event requestId attempts =>
    OwnType dhd.pktidMap requestId .eventRx ∧
      (¬ Posted dhd.pktidMap requestId → ∀ i < eventBufsTaken dhd attempts,
        dhd.pktidMap.keys (dhd.pktidMap.avail - i) ≠ requestId)
  | .rxcmplt requestId _ => OwnType dhd.pktidMap requestId .dataRx
  | _ => True

section Handlers

variable {dhd : DhdProt}

section

variable (valid : AuditInvariant ∅ dhd.pktidMap)
include valid

theorem ioctcmplt_settles {msg : IoctlCmpltMsg}
    (admitted : ¬ dhd.notExpecting → dhd.HasLocker msg.requestId) :
    Settles (dhd.ioctcmpltProcess msg).pktidMap (CompletesOwn dhd (.ioctcmplt msg)) := by
  simp only [DhdProt.ioctcmpltProcess, CompletesOwn]
  by_cases early : dhd.notExpecting
  · -- the mark is cleared and the locker stays as it is
    rw [if_pos early]
    refine (valid.auditReturn msg.requestId).settles ?_
    by_cases posted : Posted dhd.pktidMap msg.requestId
    · simp [posted, early]
    · simp [posted, OwnType]
  · rw [if_neg early]
    obtain ⟨low, high⟩ := admitted early
    obtain ⟨leaked, after, clean⟩ := valid.returned low high (show DhdPkttype.ioctlRx ≠ .noCheck by decide)
    refine after.settles (clean.trans ?_)
    simp [early]

theorem txstatus_settles {requestId : Nat}
    (admitted : dhd.HasLocker requestId) :
    Settles (dhd.txstatusProcess requestId).pktidMap (CompletesOwn dhd (.txstatus requestId)) := by
  obtain ⟨leaked, after, clean⟩ :=
    valid.returned admitted.1 admitted.2 (show DhdPkttype.dataTx ≠ .noCheck by decide)
  exact after.settles clean

theorem rxcmplt_settles {requestId : Nat}
    (bursts : List RxBurst) (admitted : dhd.HasLocker requestId) :
    Settles (dhd.rxcmpltProcess requestId bursts).pktidMap
      (CompletesOwn dhd (.rxcmplt requestId bursts)) := by
  obtain ⟨leaked, returned, clean⟩ :=
    valid.returned admitted.1 admitted.2 (show DhdPkttype.dataRx ≠ .noCheck by decide)
  have got : AuditInvariant leaked
      ((dhd.auditReturn requestId).packetGet requestId .dataRx).1.pktidMap := returned
  refine AuditInvariant.settles ?_ clean
  unfold DhdProt.rxcmpltProcess
  split
  · rename_i after nothing
    rw [nothing] at got
    exact got
  · rename_i after pkt found
    rw [found] at got
    exact got.returnRxbuf 1 bursts

theorem eventPosted_spec (requestId : Nat)
    (attempts : List CtrlAttempt) :
    let posted := dhdMsgbufRxbufPostEventBufs
      { dhd.auditReturn requestId with curEventBufsPosted := dhd.curEventBufsPosted - 1 } attempts
    AuditInvariant (if Posted dhd.pktidMap requestId then {requestId} else ∅) posted.pktidMap ∧
      Taken .eventRx (eventBufsTaken dhd attempts) dhd.pktidMap posted.pktidMap := by
  have audited := valid.auditReturn requestId
  rw [insert_empty_eq] at audited
  obtain ⟨pktidAudit, same⟩ := dhdPktidAudit_map dhd.pktidMap requestId .duplicateFree
  obtain ⟨kept, taken⟩ := @eventBufs_spec
    { dhd.auditReturn requestId with curEventBufsPosted := dhd.curEventBufsPosted - 1 } _ audited
    attempts
  refine ⟨kept, ?_⟩
  simp only [DhdProt.auditReturn, same] at taken ⊢
  exact ⟨taken.items, taken.taken, taken.kept⟩

theorem event_settles {requestId : Nat}
    (attempts : List CtrlAttempt) (admitted : dhd.HasLocker requestId) :
    Settles (dhd.eventProcess requestId attempts).pktidMap
      (CompletesOwn dhd (.event requestId attempts)) := by
  obtain ⟨kept, taken⟩ := eventPosted_spec valid requestId attempts
  have few : eventBufsTaken dhd attempts ≤ dhd.pktidMap.avail := ctrlBufsTaken_le _ _ _
  simp only [DhdProt.eventProcess, DhdProt.packetGet, CompletesOwn]
  generalize dhdMsgbufRxbufPostEventBufs
    { dhd.auditReturn requestId with curEventBufsPosted := dhd.curEventBufsPosted - 1 } attempts =
      after at kept taken ⊢
  by_cases posted : Posted dhd.pktidMap requestId
  · rw [if_pos posted] at kept
    have same := taken.kept requestId fun i below same =>
      posted.2.2 (same ▸ (valid.valid.below_free (Nat.lt_of_lt_of_le below few)).2.2)
    refine (kept.close (show DhdPkttype.eventRx ≠ .noCheck by decide)).settles ?_
    rw [same]
    simp [OwnType, posted]
  · rw [if_neg posted] at kept
    have free : (dhd.pktidMap.lockers requestId).state = .isFree := by
      by_contra used
      exact posted ⟨admitted.1, admitted.2, used⟩
    by_cases again : ∀ i < eventBufsTaken dhd attempts,
        dhd.pktidMap.keys (dhd.pktidMap.avail - i) ≠ requestId
    · have same := taken.kept requestId again
      rw [dhdPktidMapFree_free _ _ (by rw [same]; exact free)]
      have own : OwnType dhd.pktidMap requestId .eventRx := fun impossible =>
        (posted impossible).elim
      exact kept.settles (iff_of_true rfl ⟨own, fun _ => again⟩)
    · -- the free id is posted anew, and the locker of the new buffer is opened
      have handedOut : ∃ i < eventBufsTaken dhd attempts,
          dhd.pktidMap.keys (dhd.pktidMap.avail - i) = requestId := by
        by_contra none
        exact again fun i below same => none ⟨i, below, same⟩
      obtain ⟨i, below, same⟩ := handedOut
      obtain ⟨busy, own⟩ := taken.taken i below
      rw [same] at busy own
      have reposted : Posted after.pktidMap requestId :=
        ⟨admitted.1, taken.items ▸ admitted.2, by simp [busy]⟩
      have failed : ¬ (OwnType dhd.pktidMap requestId .eventRx ∧
          (¬ Posted dhd.pktidMap requestId → ∀ i < eventBufsTaken dhd attempts,
            dhd.pktidMap.keys (dhd.pktidMap.avail - i) ≠ requestId)) :=
        fun met => again (met.2 posted)
      have disagrees := kept.opened_unaudited reposted own
      exact ⟨iff_of_false disagrees failed, fun met => (failed met).elim⟩

/-- Every call, from a map in agreement. -/
theorem handler_settles {call : HandlerCall}
    (admitted : handlerMachine.admits dhd call) :
    Settles (handlerMachine.next dhd call).pktidMap (CompletesOwn dhd call) := by
  cases call with
  | rxbufPost bursts => exact (valid.postRxBursts 255 bursts).settles (iff_of_true rfl trivial)
  | rxbufPostIoctlrespBufs attempts =>
    exact (valid.ioctlrespBufs attempts).settles (iff_of_true rfl trivial)
  | rxbufPostEventBufs attempts =>
    exact (eventBufs_spec valid attempts).1.settles (iff_of_true rfl trivial)
  | tx call =>
    refine AuditInvariant.settles ?_ (iff_of_true rfl trivial)
    cases call with
    | txdata pkt ifidx secdmaAvail => exact AuditInvariant.txdata valid pkt ifidx secdmaAvail
    | txdataWriteFlush flowid =>
      change AuditInvariant ∅ (dhdProtTxdataWriteFlush dhd.toTxProt flowid).pktidMap
      rw [dhdProtTxdataWriteFlush_pktidMap]
      exact valid
    | dongleRead flowid count => exact valid
    | pktid call => exact admitted.elim
    | txpThreshold value => exact valid
  | fillupIoctReqst space => exact valid.settles (iff_of_true rfl trivial)
  | waitIoctlCmplt reset attempts =>
    exact (valid.waitIoctlCmplt reset attempts).settles (iff_of_true rfl trivial)
  | waitOver len buf reset trap => exact valid.settles (iff_of_true rfl trivial)
  | ioctack requestId =>
    refine AuditInvariant.settles ?_ (iff_of_true rfl trivial)
    simp only [Machine.next, handlerMachine, DhdProt.ioctackProcess]
    split
    · rw [dhdPktidAudit_testIsAlloc]
      exact valid
    · exact valid
  | ioctcmplt msg => exact ioctcmplt_settles valid admitted
  | txstatus requestId => exact txstatus_settles valid admitted
  | event requestId attempts => exact event_settles valid attempts admitted
  | rxcmplt requestId bursts => exact rxcmplt_settles valid bursts admitted
  | busstate down => exact valid.settles (iff_of_true rfl trivial)

end

end Handlers

section Runs

/-- The handler of this call leaves bitmap and lockers in agreement. -/
def LeavesAgreement (dhd : DhdProt) (call : HandlerCall) : Prop :=
  AuditAgrees (handlerMachine.next dhd call).pktidMap

theorem auditInvariant_preserved :
    (handlerMachine.restrict LeavesAgreement).Preserves
      (fun dhd => AuditInvariant ∅ dhd.pktidMap) := by
  intro dhd call valid admitted
  obtain ⟨accepted, agrees⟩ := admitted
  have settled := handler_settles valid accepted
  exact settled.clean (settled.agrees.mp agrees)

/-- In every run of posts and completions: bitmap and lockers agree after every
handler, exactly if every completion returns the buffer it names. -/
theorem pktid_audit_agrees_iff (prot : DhdProt) (maxHostRxbufs : Nat) {calls : List HandlerCall}
    (admitted : handlerMachine.Admitted (dhdProtInit prot maxHostRxbufs) calls) :
    let dhd := dhdProtInit prot maxHostRxbufs
    (∀ past call rest, calls = past ++ call :: rest →
        AuditAgrees (handlerMachine.run dhd (past ++ [call])).pktidMap) ↔
      ∀ past call rest, calls = past ++ call :: rest →
        CompletesOwn (handlerMachine.run dhd past) call := by
  intro dhd
  have same : (handlerMachine.restrict LeavesAgreement).Admitted dhd calls ↔
      (handlerMachine.restrict CompletesOwn).Admitted dhd calls :=
    handlerMachine.admitted_restrict_congr
      (fun _ _ valid accepted => (handler_settles valid accepted).agrees)
      auditInvariant_preserved AuditInvariant.init
  have accepted : handlerMachine.Admitted dhd calls := admitted
  simp only [Machine.admitted_restrict_iff, accepted, true_and] at same
  simp only [Machine.run_append]
  exact same

/-- A driver before its initialisation. -/
def unattached : DhdProt where
  flowRingTable := none
  pktidMap := dhdPktidMapInit 0
  txMetadataOffset := 0
  txpThreshold := 0
  activeTxCount := 0
  toIoctlProt := ioctlIdle.prot
  busDown := false
  rxbufpost := 0
  maxRxbufpost := 0
  maxEventbufpost := 0
  maxIoctlrespbufpost := 0
  curEventBufsPosted := 0
  curIoctlrespBufsPosted := 0
  rxMetadataOffset := 0
  ctrlSubnSecdma := none
  rxpSubnSecdma := none

/-- One response buffer, which gets the id on top of the stack. -/
def postResponseBuf : HandlerCall :=
  .rxbufPostIoctlrespBufs [{ secdmaAvail := true, buf := some ⟨1, 2048, 4096⟩, space := true }]

def responseMsg (transId : BitVec 16) : IoctlCmpltMsg :=
  { requestId := maxPktidItems, respLen := 0, status := 0, transId, data := fun _ => 0 }

/-- A response buffer, a request and its acknowledgement. -/
def requestAcked : List HandlerCall :=
  [postResponseBuf, .fillupIoctReqst true, .ioctack dhdIoctlReqPktid]

theorem pktid_audit_agrees_after_ack :
    handlerMachine.Admitted (dhdProtInit unattached 0)
        (requestAcked ++ [.ioctcmplt (responseMsg 1)]) ∧
      AuditAgrees (handlerMachine.run (dhdProtInit unattached 0)
        (requestAcked ++ [.ioctcmplt (responseMsg 1)])).pktidMap ∧
      (handlerMachine.run (dhdProtInit unattached 0)
        (requestAcked ++ [.ioctcmplt (responseMsg 1)])).ioctlReceived = true := by
  have inside :
      (handlerMachine.run (dhdProtInit unattached 0) requestAcked).HasLocker maxPktidItems :=
    ⟨by decide +kernel, by decide +kernel⟩
  have own : OwnType (handlerMachine.run (dhdProtInit unattached 0) requestAcked).pktidMap
      maxPktidItems .ioctlRx := fun _ => by decide +kernel
  have expected : ¬ (handlerMachine.run (dhdProtInit unattached 0) requestAcked).notExpecting := by
    decide +kernel
  have met : (handlerMachine.restrict CompletesOwn).Admitted (dhdProtInit unattached 0)
      (requestAcked ++ [.ioctcmplt (responseMsg 1)]) := by
    rw [Machine.admitted_append, Machine.restrict_run]
    exact ⟨⟨⟨trivial, trivial⟩, ⟨trivial, trivial⟩, ⟨trivial, trivial⟩, trivial⟩,
      ⟨fun _ => inside, own, fun _ => expected⟩, trivial⟩
  obtain ⟨admitted, completes⟩ := (handlerMachine.admitted_restrict_iff _ _).mp met
  refine ⟨admitted, ?_, by decide +kernel⟩
  exact (pktid_audit_agrees_iff unattached 0 admitted).mpr completes requestAcked
    (.ioctcmplt (responseMsg 1)) [] rfl

/-- The completion comes before the acknowledgement: the id of its buffer is
audited as free, and its locker is never opened. -/
theorem pktid_audit_leaks_response_buffer :
    let dhd := dhdProtInit unattached 0
    let calls := [postResponseBuf, .fillupIoctReqst true, .ioctcmplt (responseMsg 1)]
    let after := (handlerMachine.run dhd calls).pktidMap
    handlerMachine.Admitted dhd calls ∧ bcmMwbmapIsfree after.pktidAudit maxPktidItems = true ∧
      (after.lockers maxPktidItems).state = .isBusy ∧ ¬ AuditAgrees after := by
  intro dhd calls after
  have unmarked : bcmMwbmapIsfree after.pktidAudit maxPktidItems = true := by decide +kernel
  have busy : (after.lockers maxPktidItems).state = .isBusy := by decide +kernel
  have inside : maxPktidItems ≤ after.items := by decide +kernel
  have early : (handlerMachine.run dhd [postResponseBuf, .fillupIoctReqst true]).notExpecting := by
    decide +kernel
  refine ⟨⟨trivial, trivial, fun expected => (expected early).elim, trivial⟩, unmarked, busy, ?_⟩
  intro agrees
  have used : (after.lockers maxPktidItems).state ≠ .isFree := by
    rw [busy]
    decide
  have marked := (agrees maxPktidItems inside).mpr used
  rw [unmarked] at marked
  cases marked

end Runs

end BcmDhd.Msgbuf
