import BcmDhd.Msgbuf.Completions
import BcmDhd.Msgbuf.H2dRingSafety

/-! Posting of receive buffers with the ring they are posted on: the slots of a whole burst are taken
first, and those that could not be filled are given back. -/

namespace BcmDhd.Msgbuf

open BcmDhd.Lib Function

variable {bufs : List (Option RxBuf)} {posted offset : Nat} {answer : Option Nat}

def msgTypeRxbufPost : Nat := 0x11

/-- `host_rxbuf_post_t`; the addresses have their high and low words. -/
structure HostRxbufPost where
  msgType : Nat
  ifId : Nat
  epoch : Nat
  requestId : Nat
  metadataBufLen : Nat
  dataBufLen : Nat
  metadataBufAddr : Nat × Nat
  dataBufAddr : Nat × Nat
  deriving DecidableEq

/-- `h2dring_rxp_subn` with its items by their byte offset, and what a post uses besides.
`announcedItems` records the items in the order in which the dongle is told of them. -/
structure RxPostProt where
  h2d : H2dSystem
  secdma : NativePtr
  seqnum : Nat
  items : Nat → HostRxbufPost
  pktidMap : DhdPktidMap
  rxMetadataOffset : Nat
  rxPktgetfail : Nat
  announcedItems : List HostRxbufPost

/-- The slots behind the items that were filled go back: `wr` moves back, over the wrap if need be. -/
def H2dSystem.giveBack (system : H2dSystem) (count : Nat) : H2dSystem :=
  let wr := if system.ring.wr < count then system.ring.maxItems - count else system.ring.wr - count
  { system with
    ring := { system.ring with wr := wr }
    unread := system.unread.take (system.unread.length - count)
    ended := wr }

/-- What is written before there is a packet id. -/
def rxbufHeader (item : HostRxbufPost) (seqnum : Nat) : HostRxbufPost :=
  { item with msgType := msgTypeRxbufPost, ifId := 0, epoch := seqnum % h2dEpochModulo }

/-- What is written once there is one. -/
def rxbufBody (item : HostRxbufPost) (rxMetadataOffset : Nat) (buf : RxBuf) (pktid : Nat) : HostRxbufPost :=
  { item with
    requestId := pktid
    dataBufLen := (buf.pktlen - rxMetadataOffset) % 2 ^ 16
    dataBufAddr := (buf.pa / 2 ^ 32, (buf.pa % 2 ^ 32 + rxMetadataOffset) % 2 ^ 32)
    metadataBufLen := rxMetadataOffset
    metadataBufAddr := if rxMetadataOffset ≠ 0 then (buf.pa / 2 ^ 32, buf.pa % 2 ^ 32) else (0, 0) }

/-- What the locker of a posted buffer holds. -/
def rxParams (prot : RxPostProt) (buf : RxBuf) : PktParams where
  pkt := some buf.ptr
  pa := buf.pa
  len := buf.pktlen - prot.rxMetadataOffset
  dir := dmaRx
  dmah := none
  secdma := prot.secdma
  pkttype := .dataRx

/-- The loop over the slots, from a byte offset on, with the number of items filled. It ends at the
first packet that is missing (`none`), that cannot be mapped (address 0), or for which there is no id. -/
def fillRxItems (prot : RxPostProt) (offset : Nat) : Nat → List (Option RxBuf) → RxPostProt × Nat
  | slots + 1, some buf :: bufs =>
    if buf.pa = 0 then (prot, 0)
    else
      let header := rxbufHeader (prot.items offset) prot.seqnum
      -- the number is used up even if there is no id
      let seqnum := (prot.seqnum + 1) % 2 ^ 32
      let (map, pktid) := dhdPktidMapAlloc prot.pktidMap (rxParams prot buf)
      if pktid = dhdPktidInvalid then
        ({ prot with items := update prot.items offset header, seqnum := seqnum, pktidMap := map }, 0)
      else
        let filled : RxPostProt := { prot with
          items := update prot.items offset (rxbufBody header prot.rxMetadataOffset buf pktid)
          seqnum := seqnum
          pktidMap := (dhdPktidAudit map pktid .duplicateAlloc).1 }
        let (last, posted) := fillRxItems filled (offset + prot.h2d.ring.itemLen) slots bufs
        (last, posted + 1)
  | _ + 1, _ => ({ prot with rxPktgetfail := prot.rxPktgetfail + 1 }, 0)
  | 0, _ => (prot, 0)

/-- The dongle is told of everything up to the write index. -/
def RxPostProt.ringWriteComplete (prot : RxPostProt) : RxPostProt :=
  { prot with
    h2d := h2dMachine.next prot.h2d .ringWriteComplete
    announcedItems := prot.announcedItems ++ (newlyAnnounced prot.h2d).map prot.items }

/-- `none` stands for the result -1. -/
def RxPostProt.dhdProtRxbufPost (prot : RxPostProt) (count : Nat) (secdmaAvail : Bool)
    (bufs : List (Option RxBuf)) : RxPostProt × Option Nat :=
  if secdmaAvail = false then (prot, none)
  else
    match h2dMachine.step prot.h2d (.allocRingSpace count true) with
    | (h2d, some (.space offset alloced)) =>
      let (filled, i) := fillRxItems { prot with h2d } offset alloced bufs
      let rolled := if i < alloced then { filled with h2d := filled.h2d.giveBack (alloced - i) } else filled
      (if 0 < i then rolled.ringWriteComplete else rolled, some i)
    | (h2d, _) => ({ prot with h2d }, none)

variable {after filled : RxPostProt}

/-- Posts, with the dongle reading and the other users of the packet-id map in between. -/
inductive RxPostCall where
  | rxbufPost (count : Nat) (secdmaAvail : Bool) (bufs : List (Option RxBuf))
  | dongleRead (count : Nat)
  | pktid (call : PktidCall)

/-- A burst is counted in a `uint8`; the driver posts 32 buffers at a time. -/
def rxPostMachine : Machine RxPostProt RxPostCall (Option Nat) where
  step prot
    | .rxbufPost count secdmaAvail bufs => prot.dhdProtRxbufPost count secdmaAvail bufs
    | .dongleRead count => ({ prot with h2d := h2dMachine.next prot.h2d (.dongleRead count) }, none)
    | .pktid call => ({ prot with pktidMap := pktidMachine.next prot.pktidMap call }, none)
  admits prot
    | .rxbufPost count _ _ => 1 ≤ count ∧ count < 2 ^ 8
    | .dongleRead count => h2dMachine.admits prot.h2d (.dongleRead count)
    | .pktid call => pktidMachine.admits prot.pktidMap call

def clearedItem : HostRxbufPost := ⟨0, 0, 0, 0, 0, 0, (0, 0), (0, 0)⟩

/-- The ring after `dhd_prot_h2d_sync_init`. -/
def rxPostInit (maxItems itemLen numItems rxMetadataOffset : Nat) (secdma : NativePtr) : RxPostProt where
  h2d := h2dIdle maxItems itemLen 0
  secdma := secdma
  seqnum := h2dEpochInitVal
  items := fun _ => clearedItem
  pktidMap := dhdPktidMapInit numItems
  rxMetadataOffset := rxMetadataOffset
  rxPktgetfail := 0
  announcedItems := []

/-- The buffers that could be posted before the first failure, were there ids for all. -/
def usable : Nat → List (Option RxBuf) → Nat
  | slots + 1, some buf :: bufs => if buf.pa = 0 then 0 else usable slots bufs + 1
  | _, _ => 0

/-- The items that a loop has filled from a byte offset on: they are in sequence, each with an id of
its own that is busy with its buffer, and nothing in front of them is touched. -/
structure Filled (before after : RxPostProt) (offset posted : Nat) (bufs : List (Option RxBuf)) : Prop where
  h2d : after.h2d = before.h2d
  log : after.announcedItems = before.announcedItems
  map : PktidMapInvariant after.pktidMap
  front : ∀ place < offset, after.items place = before.items place
  used : ∀ key, ¬ FreeKey before.pktidMap key → after.pktidMap.lockers key = before.pktidMap.lockers key ∧
    ¬ FreeKey after.pktidMap key
  epoch : ∀ k < posted, (after.items (offset + k * before.h2d.ring.itemLen)).epoch =
    (before.seqnum + k) % 2 ^ 32 % h2dEpochModulo
  buf : ∀ k < posted, ∃ buf, bufs[k]? = some (some buf) ∧
    FreeKey before.pktidMap (after.items (offset + k * before.h2d.ring.itemLen)).requestId ∧
    (after.pktidMap.lockers (after.items (offset + k * before.h2d.ring.itemLen)).requestId).state = .isBusy ∧
    (after.pktidMap.lockers (after.items (offset + k * before.h2d.ring.itemLen)).requestId).pkt = some buf.ptr
  own : ∀ j < posted, ∀ k < j, (after.items (offset + j * before.h2d.ring.itemLen)).requestId ≠
    (after.items (offset + k * before.h2d.ring.itemLen)).requestId

variable {prot : RxPostProt}

theorem Filled.none_ (h2d : after.h2d = prot.h2d)
    (log : after.announcedItems = prot.announcedItems) (map : PktidMapInvariant after.pktidMap)
    (front : ∀ place < offset, after.items place = prot.items place)
    (lockers : after.pktidMap.lockers = prot.pktidMap.lockers) (items : after.pktidMap.items = prot.pktidMap.items) :
    Filled prot after offset 0 bufs where
  h2d := h2d
  log := log
  map := map
  front := front
  used key taken := by
    rw [lockers]
    refine ⟨rfl, fun free => taken ?_⟩
    rwa [FreeKey, lockers, items] at free
  epoch k none_ := absurd none_ (Nat.not_lt_zero k)
  buf k none_ := absurd none_ (Nat.not_lt_zero k)
  own j none_ := absurd none_ (Nat.not_lt_zero j)

/-- One item is filled in, at the byte offset. -/
structure ItemPosted (before after : RxPostProt) (offset : Nat) (buf : RxBuf) : Prop where
  h2d : after.h2d = before.h2d
  log : after.announcedItems = before.announcedItems
  map : PktidMapInvariant after.pktidMap
  avail : after.pktidMap.avail = before.pktidMap.avail - 1
  items : ∃ item, after.items = update before.items offset item ∧
    item.epoch = before.seqnum % h2dEpochModulo ∧ FreeKey before.pktidMap item.requestId ∧
    (∀ key, FreeKey after.pktidMap key ↔ FreeKey before.pktidMap key ∧ key ≠ item.requestId) ∧
    ∃ locker : DhdPktidItem, locker.state = .isBusy ∧ locker.pkt = some buf.ptr ∧
      after.pktidMap.lockers = update before.pktidMap.lockers item.requestId locker

/-- The step of the loop for a usable buffer. -/
theorem fillRxItems_cons (valid : PktidMapInvariant prot.pktidMap) (offset slots : Nat) {buf : RxBuf}
    (mapped : buf.pa ≠ 0) (bufs : List (Option RxBuf)) :
    (prot.pktidMap.avail = 0 ∧ (fillRxItems prot offset (slots + 1) (some buf :: bufs)).2 = 0 ∧
        (fillRxItems prot offset (slots + 1) (some buf :: bufs)).1.seqnum = (prot.seqnum + 1) % 2 ^ 32 ∧
        (fillRxItems prot offset (slots + 1) (some buf :: bufs)).1.pktidMap.avail = 0 ∧
        Filled prot (fillRxItems prot offset (slots + 1) (some buf :: bufs)).1 offset 0 (some buf :: bufs)) ∨
      0 < prot.pktidMap.avail ∧ ∃ filled, ItemPosted prot filled offset buf ∧
        filled.seqnum = (prot.seqnum + 1) % 2 ^ 32 ∧
        fillRxItems prot offset (slots + 1) (some buf :: bufs) =
          ((fillRxItems filled (offset + prot.h2d.ring.itemLen) slots bufs).1,
            (fillRxItems filled (offset + prot.h2d.ring.itemLen) slots bufs).2 + 1) := by
  rw [fillRxItems, if_neg mapped]
  dsimp only
  rcases dhdPktidMapAlloc_cases valid (rxParams prot buf) with ⟨empty, alloc⟩ | ⟨some_, alloc⟩
  · rw [alloc, if_pos rfl]
    refine .inl ⟨empty, rfl, rfl, empty, .none_ rfl rfl ⟨valid.positive, valid.bounded, valid.stack⟩
      (fun place before => ?_) rfl rfl⟩
    exact update_of_ne (ne_of_lt before) _ _
  · have free := valid.top_free some_
    have low : prot.pktidMap.keys prot.pktidMap.avail ≠ dhdPktidInvalid := Nat.ne_of_gt free.1
    rw [alloc, if_neg low]
    refine .inr ⟨some_, _, ?_, rfl, rfl⟩
    obtain ⟨pktidAudit, audited⟩ := dhdPktidAudit_map
      { prot.pktidMap with
        avail := prot.pktidMap.avail - 1
        lockers := update prot.pktidMap.lockers (prot.pktidMap.keys prot.pktidMap.avail)
          (savedLocker (rxParams prot buf)) } (prot.pktidMap.keys prot.pktidMap.avail) .duplicateAlloc
    rw [audited]
    refine ⟨rfl, rfl, valid.take some_ rfl rfl rfl rfl (by simp [savedLocker]), rfl,
      _, rfl, rfl, free, fun key => ?_, savedLocker (rxParams prot buf), rfl, rfl, rfl⟩
    change 1 ≤ key ∧ key ≤ prot.pktidMap.items ∧ (update prot.pktidMap.lockers _ _ key).state = _ ↔
      FreeKey prot.pktidMap key ∧ key ≠ prot.pktidMap.keys prot.pktidMap.avail
    by_cases same : key = prot.pktidMap.keys prot.pktidMap.avail
    · rw [same, update_self]
      exact iff_of_false (fun busy => absurd busy.2.2 DhdLockerState.noConfusion) fun other => other.2 rfl
    · rw [update_of_ne same]
      exact ⟨fun here => ⟨here, same⟩, fun here => here.1⟩

/-- One item, and the items behind it. -/
theorem Filled.cons {buf : RxBuf}
    (sized : 0 < prot.h2d.ring.itemLen) (word : prot.seqnum < 2 ^ 32) (first : ItemPosted prot filled offset buf)
    (seqnum : filled.seqnum = (prot.seqnum + 1) % 2 ^ 32)
    (rest : Filled filled after (offset + prot.h2d.ring.itemLen) posted bufs) :
    Filled prot after offset (posted + 1) (some buf :: bufs) := by
  obtain ⟨item, items, epoch, free, frees, locker, busy, pkt, lockers⟩ := first.items
  have own : after.items offset = item := by
    rw [rest.front offset (by omega), items, update_self]
  have taken : ¬ FreeKey filled.pktidMap item.requestId := fun here => ((frees _).mp here).2 rfl
  have kept := rest.used item.requestId taken
  have later : ∀ k, offset + prot.h2d.ring.itemLen + k * filled.h2d.ring.itemLen =
      offset + (k + 1) * prot.h2d.ring.itemLen := by
    intro k
    rw [first.h2d, Nat.succ_mul]
    omega
  refine ⟨rest.h2d.trans first.h2d, rest.log.trans first.log, rest.map, ?_, ?_, ?_, ?_, ?_⟩
  · intro place before
    rw [rest.front place (by omega), items, update_of_ne (ne_of_lt before)]
  · intro key busy
    have still : ¬ FreeKey filled.pktidMap key := fun here => busy ((frees key).mp here).1
    have other : key ≠ item.requestId := fun same => busy (same ▸ free)
    obtain ⟨same, now⟩ := rest.used key still
    rw [same, lockers, update_of_ne other]
    exact ⟨rfl, now⟩
  · intro k below
    cases k with
    | zero =>
      rw [Nat.zero_mul, Nat.add_zero, own, epoch, Nat.add_zero, Nat.mod_eq_of_lt word]
    | succ k =>
      have behind := rest.epoch k (by omega)
      rw [later, seqnum, Nat.mod_add_mod, Nat.add_assoc, Nat.add_comm 1 k] at behind
      exact behind
  · intro k below
    cases k with
    | zero =>
      rw [Nat.zero_mul, Nat.add_zero, own]
      refine ⟨buf, rfl, free, ?_, ?_⟩
      · rw [kept.1, lockers, update_self, busy]
      · rw [kept.1, lockers, update_self, pkt]
    | succ k =>
      obtain ⟨next, at_, free, busy, pkt⟩ := rest.buf k (by omega)
      rw [later] at free busy pkt
      exact ⟨next, at_, ((frees _).mp free).1, busy, pkt⟩
  · intro j below k before
    cases j with
    | zero => exact absurd before (Nat.not_lt_zero k)
    | succ j =>
      cases k with
      | zero =>
        obtain ⟨next, -, free, -, -⟩ := rest.buf j (by omega)
        rw [later] at free
        rw [Nat.zero_mul, Nat.add_zero offset, own]
        exact ((frees _).mp free).2
      | succ k =>
        have apart := rest.own j (by omega) k (by omega)
        rw [later, later] at apart
        exact apart

/-- What a loop fills: all that is usable, or as much as there are ids. A number is lost if it is the
ids that end. -/
theorem fillRxItems_spec (sized : 0 < prot.h2d.ring.itemLen) (word : prot.seqnum < 2 ^ 32)
    (valid : PktidMapInvariant prot.pktidMap) (offset slots : Nat) (bufs : List (Option RxBuf)) :
    Filled prot (fillRxItems prot offset slots bufs).1 offset (fillRxItems prot offset slots bufs).2 bufs ∧
      (fillRxItems prot offset slots bufs).2 = min (usable slots bufs) prot.pktidMap.avail ∧
      (fillRxItems prot offset slots bufs).1.seqnum =
        (prot.seqnum + min (usable slots bufs) (prot.pktidMap.avail + 1)) % 2 ^ 32 ∧
      (fillRxItems prot offset slots bufs).1.pktidMap.avail =
        prot.pktidMap.avail - min (usable slots bufs) prot.pktidMap.avail := by
  have still : prot.seqnum = (prot.seqnum + min 0 (prot.pktidMap.avail + 1)) % 2 ^ 32 := by
    rw [Nat.zero_min, Nat.add_zero, Nat.mod_eq_of_lt word]
  induction slots generalizing prot offset bufs with
  | zero =>
    unfold fillRxItems usable
    exact ⟨.none_ rfl rfl valid (fun _ _ => rfl) rfl rfl, (Nat.zero_min _).symm, still, by simp⟩
  | succ slots ih =>
    cases bufs with
    | nil =>
      unfold fillRxItems usable
      exact ⟨.none_ rfl rfl valid (fun _ _ => rfl) rfl rfl, (Nat.zero_min _).symm, still, by simp⟩
    | cons head bufs =>
      cases head with
      | none =>
        unfold fillRxItems usable
        exact ⟨.none_ rfl rfl valid (fun _ _ => rfl) rfl rfl, (Nat.zero_min _).symm, still, by simp⟩
      | some buf =>
        by_cases zero : buf.pa = 0
        · rw [fillRxItems, usable, if_pos zero, if_pos zero]
          exact ⟨.none_ rfl rfl valid (fun _ _ => rfl) rfl rfl, (Nat.zero_min _).symm, still, by simp⟩
        rw [usable, if_neg zero]
        rcases fillRxItems_cons valid offset slots zero bufs with
          ⟨empty, none_, seqnum, avail, filled⟩ | ⟨some_, filled, first, seqnum, whole⟩
        · rw [none_, seqnum, empty]
          exact ⟨filled, (Nat.min_zero _).symm, by rw [Nat.min_eq_right (by omega)], avail⟩
        · have word' : filled.seqnum < 2 ^ 32 := by
            rw [seqnum]
            exact Nat.mod_lt _ (by decide)
          have still' : filled.seqnum = (filled.seqnum + min 0 (filled.pktidMap.avail + 1)) % 2 ^ 32 := by
            rw [Nat.zero_min, Nat.add_zero, Nat.mod_eq_of_lt word']
          obtain ⟨rest, count, last, avail⟩ := ih (by rw [first.h2d]; exact sized) word' first.map
            (offset + prot.h2d.ring.itemLen) bufs still'
          rw [whole]
          refine ⟨.cons sized word first seqnum rest, ?_, ?_, ?_⟩
          · dsimp only
            rw [count, first.avail]
            omega
          · dsimp only
            rw [last, seqnum, first.avail, Nat.mod_add_mod]
            congr 1
            omega
          · dsimp only
            rw [avail, first.avail]
            omega

/-- What is given back was never handed out. -/
theorem giveBack_grant {system : H2dSystem} (valid : H2dInvariant system) (rd : Nat) {alloced : Nat}
    (uncut : system.ring.wr + alloced ≤ system.ring.maxItems) (fewer : posted < alloced) :
    (grant system rd alloced).giveBack (alloced - posted) = grant system rd posted := by
  have inside : system.ring.wr < system.ring.maxItems := valid.refreshed.wr_inside
  have back : (if (system.ring.wr + alloced) % system.ring.maxItems < alloced - posted then
      system.ring.maxItems - (alloced - posted)
      else (system.ring.wr + alloced) % system.ring.maxItems - (alloced - posted)) =
      (system.ring.wr + posted) % system.ring.maxItems := by
    rw [Nat.mod_eq_of_lt (a := system.ring.wr + posted) (by omega)]
    by_cases full : system.ring.wr + alloced = system.ring.maxItems
    · rw [full, Nat.mod_self, if_pos (by omega)]
      omega
    · rw [Nat.mod_eq_of_lt (by omega), if_neg (by omega)]
      omega
  have taken : (system.unread ++ slots system.ring.maxItems system.ring.wr alloced).take
      ((system.unread ++ slots system.ring.maxItems system.ring.wr alloced).length - (alloced - posted)) =
      system.unread ++ slots system.ring.maxItems system.ring.wr posted := by
    have split := Circular.slots_add system.ring.maxItems system.ring.wr posted (alloced - posted)
    rw [Nat.add_sub_cancel' (by omega)] at split
    rw [split, ← List.append_assoc]
    apply List.take_left'
    simp only [List.length_append, Circular.length_slots]
    omega
  unfold H2dSystem.giveBack grant
  dsimp only
  rw [back, taken]

theorem newlyAnnounced_grant {system : H2dSystem} (valid : H2dInvariant system)
    (told : system.announced = system.ring.wr)
    (rd : Nat) (uncut : system.ring.wr + posted ≤ system.ring.maxItems)
    (short : posted < system.ring.maxItems) :
    newlyAnnounced (grant system rd posted) =
      (List.range posted).map fun k => system.ring.wr * system.ring.itemLen + k * system.ring.itemLen := by
  have inside : system.ring.wr < system.ring.maxItems := valid.refreshed.wr_inside
  unfold newlyAnnounced grant
  dsimp only
  rw [told, Circular.distance_add inside short, Circular.slots_eq_range uncut, List.range'_eq_map_range,
    List.map_map]
  apply List.map_congr_left
  intro k _
  exact Nat.add_mul _ _ _

/-- Everything is announced, and the items have their places. -/
structure RxInvariant (prot : RxPostProt) : Prop where
  h2d : H2dInvariant prot.h2d
  told : prot.h2d.announced = prot.h2d.ring.wr
  map : PktidMapInvariant prot.pktidMap
  sized : 0 < prot.h2d.ring.itemLen
  word : prot.seqnum < 2 ^ 32

/-- A post announces these items: as many as it returns, up to the write index, each with an id of its
own that is busy with its buffer. -/
structure Announces (before after : RxPostProt) (answer : Option Nat) (bufs : List (Option RxBuf))
    (items : List HostRxbufPost) : Prop where
  log : after.announcedItems = before.announcedItems ++ items
  told : after.h2d.announced = after.h2d.ring.wr
  answer : answer = some items.length ∨ answer = none ∧ items = []
  wr : after.h2d.ring.wr = (before.h2d.ring.wr + items.length) % before.h2d.ring.maxItems
  busy : ∀ (k : Nat) (inside : k < items.length), ∃ buf, bufs[k]? = some (some buf) ∧
    (after.pktidMap.lockers items[k].requestId).state = .isBusy ∧
    (after.pktidMap.lockers items[k].requestId).pkt = some buf.ptr
  own : (items.map (·.requestId)).Nodup

/-- The slots that a request for a burst gets. -/
def burstSlots (prot : RxPostProt) (count : Nat) : Nat :=
  match (h2dMachine.step prot.h2d (.allocRingSpace count true)).2 with
  | some (.space _ alloced) => alloced
  | _ => 0

/-- The numbers a burst of buffers uses up. -/
def usedNumbers (prot : RxPostProt) (count : Nat) (secdmaAvail : Bool) (bufs : List (Option RxBuf)) : Nat :=
  if secdmaAvail then min (usable (burstSlots prot count) bufs) (prot.pktidMap.avail + 1) else 0

/-- The items it announces. -/
def postedItems (prot : RxPostProt) (count : Nat) (secdmaAvail : Bool) (bufs : List (Option RxBuf)) : Nat :=
  if secdmaAvail then min (usable (burstSlots prot count) bufs) prot.pktidMap.avail else 0

theorem usable_le (slots : Nat) (bufs : List (Option RxBuf)) : usable slots bufs ≤ slots := by
  induction slots generalizing bufs with
  | zero => exact Nat.le_refl 0
  | succ slots ih =>
    rcases bufs with - | ⟨- | buf, bufs⟩
    · exact Nat.zero_le _
    · exact Nat.zero_le _
    · unfold usable
      split
      · exact Nat.zero_le _
      · exact Nat.succ_le_succ (ih bufs)

theorem Announces.none_
    (log : after.announcedItems = prot.announcedItems) (nothing : answer = some 0 ∨ answer = none)
    (wr : after.h2d.ring.wr = prot.h2d.ring.wr) (told : after.h2d.announced = after.h2d.ring.wr)
    (inside : prot.h2d.ring.wr < prot.h2d.ring.maxItems) : Announces prot after answer bufs [] where
  log := by rw [log, List.append_nil]
  told := told
  answer := nothing.imp id fun none_ => ⟨none_, rfl⟩
  wr := by rw [wr, List.length_nil, Nat.add_zero, Nat.mod_eq_of_lt inside]
  busy k none_ := absurd none_ (Nat.not_lt_zero k)
  own := List.nodup_nil

/-- What a post does, whatever fails in it. -/
structure PostSpec (prot after : RxPostProt) (answer : Option Nat) (bufs : List (Option RxBuf)) (used posted : Nat) :
    Prop where
  invariant : RxInvariant after
  seqnum : after.seqnum = (prot.seqnum + used) % 2 ^ 32
  maxItems : after.h2d.ring.maxItems = prot.h2d.ring.maxItems
  unread : after.h2d.unread.length = prot.h2d.unread.length + posted
  avail : after.pktidMap.avail = prot.pktidMap.avail - posted
  items : ∃ items, Announces prot after answer bufs items ∧ items.length = posted ∧
    ∀ (k : Nat) (inside : k < items.length), items[k].epoch = (prot.seqnum + k) % 2 ^ 32 % h2dEpochModulo

theorem Filled.setH2d {h2d h2d' : H2dSystem}
    (filled : Filled { prot with h2d := h2d } after offset posted bufs)
    (same : h2d'.ring.itemLen = h2d.ring.itemLen) :
    Filled { prot with h2d := h2d' } { after with h2d := h2d' } offset posted bufs where
  h2d := rfl
  log := filled.log
  map := filled.map
  front := filled.front
  used := filled.used
  epoch := by rw [same]; exact filled.epoch
  buf := by rw [same]; exact filled.buf
  own := by rw [same]; exact filled.own

/-- The items filled in, when they are announced. -/
theorem announced_items (valid : RxInvariant prot) {rd : Nat}
    (loop : Filled { prot with h2d := grant prot.h2d rd posted } filled
      (prot.h2d.ring.wr * prot.h2d.ring.itemLen) posted
      bufs) (uncut : prot.h2d.ring.wr + posted ≤ prot.h2d.ring.maxItems) (short : posted < prot.h2d.ring.maxItems) :
    ∃ items, Announces prot filled.ringWriteComplete (some posted) bufs items ∧ items.length = posted ∧
      ∀ (k : Nat) (inside : k < items.length), items[k].epoch = (prot.seqnum + k) % 2 ^ 32 % h2dEpochModulo := by
  have h2d : filled.h2d = grant prot.h2d rd posted := loop.h2d
  have places := newlyAnnounced_grant valid.h2d valid.told rd uncut short
  rw [← h2d] at places
  refine ⟨(newlyAnnounced filled.h2d).map filled.items, ⟨?_, rfl, .inl ?_, ?_, ?_, ?_⟩, ?_, ?_⟩
  · change filled.announcedItems ++ _ = _
    rw [loop.log]
  · rw [places, List.length_map, List.length_map, List.length_range]
  · rw [places, List.length_map, List.length_map, List.length_range]
    change filled.h2d.ring.wr = _
    rw [h2d]
    rfl
  · intro k inside
    rw [places, List.length_map, List.length_map, List.length_range] at inside
    obtain ⟨buf, at_, -, busy, pkt⟩ := loop.buf k inside
    refine ⟨buf, at_, ?_⟩
    simp only [places, List.getElem_map, List.getElem_range]
    exact ⟨busy, pkt⟩
  · rw [places, List.map_map, List.map_map]
    refine List.Nodup.map_on (fun j insideJ k insideK same => ?_) List.nodup_range
    have belowJ := List.mem_range.mp insideJ
    have belowK := List.mem_range.mp insideK
    rcases Nat.lt_trichotomy j k with before | same | before
    · exact absurd same.symm (loop.own k belowK j before)
    · exact same
    · exact absurd same (loop.own j belowJ k before)
  · rw [places, List.length_map, List.length_map, List.length_range]
  · intro k inside
    rw [places, List.length_map, List.length_map, List.length_range] at inside
    simp only [places, List.getElem_map, List.getElem_range]
    exact loop.epoch k inside

/-- The end of a burst that has its slots: the loop, the roll-back and the announcement. -/
theorem burst_spec (valid : RxInvariant prot) (bufs : List (Option RxBuf)) {rd stale alloced : Nat}
    (sees : Sees prot.h2d rd stale) (room : stale + prot.h2d.unread.length + alloced < prot.h2d.ring.maxItems)
    (uncut : prot.h2d.ring.wr + alloced ≤ prot.h2d.ring.maxItems)
    (loop : fillRxItems { prot with h2d := grant prot.h2d rd alloced }
      (prot.h2d.ring.wr * prot.h2d.ring.itemLen)
      alloced bufs = (filled, posted)) :
    let rolled := if posted < alloced then { filled with h2d := filled.h2d.giveBack (alloced - posted) } else filled
    PostSpec prot (if 0 < posted then rolled.ringWriteComplete else rolled) (some posted) bufs
      (min (usable alloced bufs) (prot.pktidMap.avail + 1)) (min (usable alloced bufs) prot.pktidMap.avail) := by
  have spec := @fillRxItems_spec { prot with h2d := grant prot.h2d rd alloced } valid.sized valid.word
    valid.map (prot.h2d.ring.wr * prot.h2d.ring.itemLen) alloced bufs
  rw [loop] at spec
  obtain ⟨items, count, seqnum, avail⟩ := spec
  dsimp only at items count seqnum avail
  have most : posted ≤ alloced := by
    have := usable_le alloced bufs
    omega
  have back : (if posted < alloced then { filled with h2d := filled.h2d.giveBack (alloced - posted) } else filled) =
      { filled with h2d := grant prot.h2d rd posted } := by
    by_cases fewer : posted < alloced
    · rw [if_pos fewer, items.h2d]
      dsimp only
      rw [giveBack_grant valid.h2d rd uncut fewer]
    · have all : posted = alloced := by omega
      have same : filled.h2d = grant prot.h2d rd posted := by
        rw [items.h2d, all]
      rw [if_neg fewer, ← same]
  dsimp only
  rw [back]
  have granted : H2dInvariant (grant prot.h2d rd posted) := valid.h2d.grant sees (by omega)
  have inside : prot.h2d.ring.wr < prot.h2d.ring.maxItems := valid.h2d.refreshed.wr_inside
  have unread : (grant prot.h2d rd posted).unread.length =
      prot.h2d.unread.length + min (usable alloced bufs) prot.pktidMap.avail := by
    rw [← count]
    simp [grant]
  have rolled : Filled { prot with h2d := grant prot.h2d rd posted } { filled with h2d := grant prot.h2d rd posted }
      (prot.h2d.ring.wr * prot.h2d.ring.itemLen) posted bufs := items.setH2d rfl
  by_cases some_ : 0 < posted
  · rw [if_pos some_]
    have word : filled.seqnum < 2 ^ 32 := by
      rw [seqnum]
      exact Nat.mod_lt _ (by decide)
    obtain ⟨new, announces, length, epoch⟩ := announced_items valid rolled (by omega) (by omega)
    exact ⟨⟨granted.announce, rfl, items.map, valid.sized, word⟩, seqnum, rfl, unread, avail, new, announces,
      by omega, epoch⟩
  · have none_ : posted = 0 := by omega
    subst none_
    rw [if_neg some_]
    have word : filled.seqnum < 2 ^ 32 := by
      rw [seqnum]
      exact Nat.mod_lt _ (by decide)
    have still : (prot.h2d.ring.wr + 0) % prot.h2d.ring.maxItems = prot.h2d.ring.wr := Nat.mod_eq_of_lt inside
    have told : (grant prot.h2d rd 0).announced = (grant prot.h2d rd 0).ring.wr := valid.told.trans still.symm
    refine ⟨⟨granted, told, items.map, valid.sized, word⟩, seqnum, rfl, unread, avail, [],
      .none_ items.log (.inl rfl) still told inside, by rw [← count]; rfl, ?_⟩
    intro k none_
    exact absurd none_ (Nat.not_lt_zero k)

/-- A post, whatever fails in it: it announces and returns what it filled in. -/
theorem rxbufPost_spec (valid : RxInvariant prot) (count : Nat) (secdmaAvail : Bool) (bufs : List (Option RxBuf)) :
    PostSpec prot (prot.dhdProtRxbufPost count secdmaAvail bufs).1 (prot.dhdProtRxbufPost count secdmaAvail bufs).2 bufs
      (usedNumbers prot count secdmaAvail bufs) (postedItems prot count secdmaAvail bufs) := by
  have inside : prot.h2d.ring.wr < prot.h2d.ring.maxItems := valid.h2d.refreshed.wr_inside
  have still : prot.seqnum = (prot.seqnum + 0) % 2 ^ 32 := (Nat.mod_eq_of_lt valid.word).symm
  unfold RxPostProt.dhdProtRxbufPost usedNumbers postedItems
  cases secdmaAvail with
  | false =>
    refine ⟨valid, still, rfl, rfl, rfl, [], .none_ rfl (.inr rfl) rfl valid.told inside, rfl, fun k none_ => ?_⟩
    exact absurd none_ (Nat.not_lt_zero k)
  | true =>
    rw [if_neg (by decide), if_pos rfl, if_pos rfl]
    unfold burstSlots
    rcases h2dMachine_alloc_cases valid.h2d count true with ⟨-, step⟩ | ⟨rd, stale, alloced, sees, -, granted, step⟩
    · rw [step]
      dsimp only [usable]
      rw [Nat.zero_min, Nat.zero_min]
      refine ⟨⟨valid.h2d.refresh, valid.told, valid.map, valid.sized, valid.word⟩, still, rfl, rfl, rfl, [],
        .none_ rfl (.inr rfl) rfl valid.told inside, rfl, fun k none_ => ?_⟩
      exact absurd none_ (Nat.not_lt_zero k)
    · rw [step]
      have room := grant_room sees granted
      exact burst_spec valid bufs sees room.1 room.2 rfl

/-- The burst does not run out of packet ids, nor out of 32-bit numbers. -/
def KeepsNumbers (prot : RxPostProt) : RxPostCall → Prop
  | .rxbufPost count secdmaAvail bufs => secdmaAvail = true →
    usable (burstSlots prot count) bufs ≤ prot.pktidMap.avail ∧
      prot.seqnum + usable (burstSlots prot count) bufs < 2 ^ 32
  | _ => True

/-- Every item has the number that follows the one before it. -/
def EpochsConsecutive (items : List HostRxbufPost) : Prop :=
  ∀ (k : Nat) (inside : k + 1 < items.length), items[k + 1].epoch = (items[k].epoch + 1) % h2dEpochModulo

/-- What a call has to leave, if it is a post. -/
def PostsExactly (prot : RxPostProt) : RxPostCall → Prop
  | .rxbufPost count secdmaAvail bufs => ∃ items, Announces prot (prot.dhdProtRxbufPost count secdmaAvail bufs).1
    (prot.dhdProtRxbufPost count secdmaAvail bufs).2 bufs items
  | _ => True

/-- All items so far, numbered from the start. -/
structure Numbered (prot : RxPostProt) : Prop where
  seqnum : prot.seqnum = h2dEpochInitVal + prot.announcedItems.length
  epoch : ∀ (k : Nat) (inside : k < prot.announcedItems.length),
    prot.announcedItems[k].epoch = (h2dEpochInitVal + k) % h2dEpochModulo

theorem Numbered.consecutive (numbered : Numbered prot) : EpochsConsecutive prot.announcedItems := by
  intro k inside
  rw [numbered.epoch (k + 1) inside, numbered.epoch k (by omega), Nat.mod_add_mod, Nat.add_assoc]

theorem rxPostMachine_preserves : rxPostMachine.Preserves RxInvariant := by
  intro prot call valid admitted
  cases call with
  | rxbufPost count secdmaAvail bufs => exact (rxbufPost_spec valid count secdmaAvail bufs).invariant
  | dongleRead count => exact ⟨valid.h2d.read admitted, valid.told, valid.map, valid.sized, valid.word⟩
  | pktid call =>
    exact ⟨valid.h2d, valid.told, pktidMachine_preserves prot.pktidMap call valid.map admitted, valid.sized, valid.word⟩

theorem numbered_post (valid : RxInvariant prot) (numbered : Numbered prot) {count : Nat}
    {secdmaAvail : Bool} (keeps : KeepsNumbers prot (.rxbufPost count secdmaAvail bufs)) :
    Numbered (prot.dhdProtRxbufPost count secdmaAvail bufs).1 := by
  obtain ⟨-, seqnum, -, -, -, items, announces, length, epoch⟩ := rxbufPost_spec valid count secdmaAvail bufs
  have used : usedNumbers prot count secdmaAvail bufs = items.length ∧ prot.seqnum + items.length < 2 ^ 32 := by
    have word := valid.word
    rw [length]
    unfold usedNumbers postedItems
    cases secdmaAvail with
    | false => exact ⟨rfl, word⟩
    | true =>
      have := keeps rfl
      rw [if_pos rfl, if_pos rfl]
      omega
  constructor
  · rw [seqnum, used.1, Nat.mod_eq_of_lt used.2, announces.log, List.length_append, numbered.seqnum, Nat.add_assoc]
  · rw [announces.log]
    intro k inside
    rw [List.length_append] at inside
    rcases Nat.lt_or_ge k prot.announcedItems.length with before | behind
    · rw [List.getElem_append_left before]
      exact numbered.epoch k before
    · have number : prot.seqnum + (k - prot.announcedItems.length) = h2dEpochInitVal + k := by
        rw [numbered.seqnum]
        omega
      have small : h2dEpochInitVal + k < 2 ^ 32 := by
        rw [← number]
        omega
      rw [List.getElem_append_right behind, epoch _ (by omega), number, Nat.mod_eq_of_lt small]

theorem rxPostInit_valid {maxItems itemLen numItems : Nat} (rxMetadataOffset : Nat) (secdma : NativePtr)
    (some_ : 0 < maxItems) (narrow : maxItems < 2 ^ 16) (sized : 0 < itemLen) (keys : 1 ≤ numItems)
    (bounded : numItems ≤ maxPktidItems) :
    RxInvariant (rxPostInit maxItems itemLen numItems rxMetadataOffset secdma) where
  h2d := h2dIdle_valid itemLen some_ narrow
  told := rfl
  map := .init keys bounded
  sized := sized
  word := (by decide : h2dEpochInitVal < 2 ^ 32)

/-- In a run of posts none of which runs out of ids or numbers, the items announced carry consecutive
epochs; and every post announces what it returns. -/
theorem run_rxbufPosts {maxItems itemLen numItems : Nat} (rxMetadataOffset : Nat) (secdma : NativePtr)
    (some_ : 0 < maxItems) (narrow : maxItems < 2 ^ 16) (sized : 0 < itemLen) (keys : 1 ≤ numItems)
    (bounded : numItems ≤ maxPktidItems) (calls : List RxPostCall)
    (admitted : rxPostMachine.Admitted (rxPostInit maxItems itemLen numItems rxMetadataOffset secdma) calls)
    (met : ∀ past call rest, calls = past ++ call :: rest →
      KeepsNumbers (rxPostMachine.run (rxPostInit maxItems itemLen numItems rxMetadataOffset secdma) past) call) :
    EpochsConsecutive
        (rxPostMachine.run (rxPostInit maxItems itemLen numItems rxMetadataOffset secdma) calls).announcedItems ∧
      ∀ past call rest, calls = past ++ call :: rest →
        PostsExactly (rxPostMachine.run (rxPostInit maxItems itemLen numItems rxMetadataOffset secdma) past) call := by
  have start := rxPostInit_valid rxMetadataOffset secdma some_ narrow sized keys bounded
  constructor
  · have both := (rxPostMachine.admitted_restrict_iff _ calls).mpr ⟨admitted, met⟩
    have kept : (rxPostMachine.restrict KeepsNumbers).Preserves fun prot => RxInvariant prot ∧ Numbered prot := by
      intro prot call ⟨valid, numbered⟩ ⟨accepted, keeps⟩
      refine ⟨rxPostMachine_preserves prot call valid accepted, ?_⟩
      cases call with
      | rxbufPost count secdmaAvail bufs => exact numbered_post valid numbered keeps
      | dongleRead count => exact ⟨numbered.seqnum, numbered.epoch⟩
      | pktid call => exact ⟨numbered.seqnum, numbered.epoch⟩
    have reached := (rxPostMachine.restrict KeepsNumbers).run_invariant kept
      ⟨start, rfl, fun k none_ => absurd none_ (Nat.not_lt_zero k)⟩ both
    rw [Machine.restrict_run] at reached
    exact reached.2.consecutive
  · intro past call rest split
    rw [split, Machine.admitted_append] at admitted
    have valid := rxPostMachine.run_invariant rxPostMachine_preserves start admitted.1
    cases call with
    | rxbufPost count secdmaAvail bufs =>
      obtain ⟨-, -, -, -, -, items, announces, -⟩ := rxbufPost_spec valid count secdmaAvail bufs
      exact ⟨items, announces⟩
    | dongleRead count => trivial
    | pktid call => trivial

/-- Of three buffers the last cannot be mapped. -/
def partBurst : RxPostCall := .rxbufPost 3 true [some ⟨1, 2048, 4096⟩, some ⟨2, 2048, 8192⟩, some ⟨3, 2048, 0⟩]

theorem run_rxbufPosts_part :
    EpochsConsecutive (rxPostMachine.run (rxPostInit 8 32 4 0 none) [partBurst]).announcedItems ∧
      PostsExactly (rxPostInit 8 32 4 0 none) partBurst := by
  have met : ∀ past call rest, [partBurst] = past ++ call :: rest →
      KeepsNumbers (rxPostMachine.run (rxPostInit 8 32 4 0 none) past) call := by
    intro past call rest split
    cases past with
    | nil =>
      cases split
      exact fun _ => by decide +kernel
    | cons _ past => simp at split
  have all := @run_rxbufPosts 8 32 4 0 none (by decide) (by decide) (by decide) (by decide) (by decide) [partBurst]
    ⟨⟨by decide, by decide⟩, trivial⟩ met
  exact ⟨all.1, all.2 [] partBurst [] rfl⟩

theorem burstSlots_one (valid : RxInvariant prot) (room : prot.h2d.unread.length + 1 < prot.h2d.ring.maxItems) :
    burstSlots prot 1 = 1 := by
  have inside : prot.h2d.ring.wr < prot.h2d.ring.maxItems := valid.h2d.refreshed.wr_inside
  unfold burstSlots
  rcases h2dMachine_alloc_cases valid.h2d 1 true with ⟨refused, -⟩ | ⟨rd, stale, alloced, -, some_, granted, step⟩
  · unfold Refused writable at refused
    omega
  · rw [step]
    dsimp only
    omega

/-- One buffer, with a slot for it. -/
def oneBuffer : RxPostCall := .rxbufPost 1 true [some ⟨1, 2048, 4096⟩]

theorem post_oneBuffer (valid : RxInvariant prot) (room : prot.h2d.unread.length + 1 < prot.h2d.ring.maxItems) :
    ∃ answer, PostSpec prot (rxPostMachine.next prot oneBuffer) answer [some ⟨1, 2048, 4096⟩] 1
      (min 1 prot.pktidMap.avail) := by
  have spec := rxbufPost_spec valid 1 true [some ⟨1, 2048, 4096⟩]
  unfold usedNumbers postedItems at spec
  rw [if_pos rfl, if_pos rfl, burstSlots_one valid room] at spec
  have one : usable 1 [some ⟨1, 2048, 4096⟩] = 1 := rfl
  rw [one, Nat.min_eq_left (by omega)] at spec
  exact ⟨_, spec⟩

theorem run_reserve (count : Nat) (prot : RxPostProt) :
    ∃ map, rxPostMachine.run prot (List.replicate count (.pktid (.reserve none))) = { prot with pktidMap := map } ∧
      map.avail = prot.pktidMap.avail - count := by
  induction count generalizing prot with
  | zero => exact ⟨prot.pktidMap, rfl, rfl⟩
  | succ count ih =>
    obtain ⟨map, run, avail⟩ := ih (rxPostMachine.next prot (.pktid (.reserve none)))
    refine ⟨map, run, ?_⟩
    rw [avail]
    change (dhdPktidMapReserve prot.pktidMap none).1.avail - count = _
    rcases dhdPktidMapReserve_cases prot.pktidMap none with ⟨empty, refused⟩ | ⟨some_, taken⟩
    · rw [refused]
      dsimp only
      omega
    · rw [taken]
      dsimp only
      omega

theorem admitted_reserve (count : Nat) (prot : RxPostProt) :
    rxPostMachine.Admitted prot (List.replicate count (.pktid (.reserve none))) := by
  induction count generalizing prot with
  | zero => trivial
  | succ count ih => exact ⟨trivial, ih _⟩

theorem free_first (valid : PktidMapInvariant prot.pktidMap) (empty : prot.pktidMap.avail = 0) :
    (rxPostMachine.next prot (.pktid (.free 1 .noCheck false))).pktidMap.avail = 1 := by
  have busy : (prot.pktidMap.lockers 1).state ≠ .isFree := fun free =>
    valid.avail_eq_zero.mp empty 1 ⟨Nat.le_refl 1, valid.positive, free⟩
  change (dhdPktidMapFree prot.pktidMap 1 .noCheck false).1.avail = 1
  rcases dhdPktidMapFree_cases prot.pktidMap 1 .noCheck false with ⟨refused, -⟩ | ⟨-, -, freed⟩
  · rcases refused with free | ⟨other, -⟩
    · exact absurd free busy
    · exact absurd rfl other
  · rw [freed, if_pos rfl]
    dsimp only
    rw [empty]

theorem PostSpec.nothing {used : Nat}
    (spec : PostSpec prot after answer bufs used 0) : after.announcedItems = prot.announcedItems := by
  obtain ⟨items, announces, length, -⟩ := spec.items
  rw [announces.log, List.eq_nil_of_length_eq_zero length, List.append_nil]

theorem PostSpec.one {used : Nat}
    (spec : PostSpec prot after answer bufs used 1) : ∃ item, after.announcedItems = prot.announcedItems ++ [item] ∧
      item.epoch = prot.seqnum % 2 ^ 32 % h2dEpochModulo := by
  obtain ⟨items, announces, length, epoch⟩ := spec.items
  obtain ⟨item, rfl⟩ := List.length_eq_one_iff.mp length
  exact ⟨item, announces.log, epoch 0 (Nat.zero_lt_one)⟩

/-- A buffer that finds no id, and one that does, after an id has come back. -/
def lostEnd : List RxPostCall := [oneBuffer, .pktid (.free 1 .noCheck false), oneBuffer]

/-- The item is numbered as if the first buffer had been posted. -/
theorem run_lostEnd (valid : RxInvariant prot) (empty : prot.pktidMap.avail = 0)
    (room : prot.h2d.unread.length + 1 < prot.h2d.ring.maxItems) :
    rxPostMachine.Admitted prot lostEnd ∧
      ∃ item, (rxPostMachine.run prot lostEnd).announcedItems = prot.announcedItems ++ [item] ∧
        item.epoch = (prot.seqnum + 1) % 2 ^ 32 % h2dEpochModulo := by
  obtain ⟨answer, failed⟩ := post_oneBuffer valid room
  rw [empty] at failed
  have none_ : (rxPostMachine.next prot oneBuffer).pktidMap.avail = 0 := by
    rw [failed.avail, empty]
    rfl
  have frees : rxPostMachine.admits (rxPostMachine.next prot oneBuffer) (.pktid (.free 1 .noCheck false)) :=
    ⟨Nat.le_refl 1, failed.invariant.map.positive⟩
  have freed := rxPostMachine_preserves _ _ failed.invariant frees
  have again := post_oneBuffer freed (by
    change (rxPostMachine.next prot oneBuffer).h2d.unread.length + 1 <
      (rxPostMachine.next prot oneBuffer).h2d.ring.maxItems
    rw [failed.unread, failed.maxItems]
    exact room)
  rw [free_first failed.invariant.map none_] at again
  obtain ⟨answer, posted⟩ := again
  obtain ⟨item, log, epoch⟩ := posted.one
  refine ⟨⟨⟨Nat.le_refl 1, by decide⟩, frees, ⟨Nat.le_refl 1, by decide⟩, trivial⟩, item, ?_, ?_⟩
  · change (rxPostMachine.next (rxPostMachine.next (rxPostMachine.next prot oneBuffer) _) oneBuffer).announcedItems = _
    rw [log]
    change (rxPostMachine.next prot oneBuffer).announcedItems ++ [item] = _
    rw [failed.nothing]
  · rw [epoch]
    change (rxPostMachine.next prot oneBuffer).seqnum % 2 ^ 32 % h2dEpochModulo = _
    rw [failed.seqnum, Nat.mod_mod]

/-- A buffer is posted, then all ids are taken. -/
def lostCalls (numItems : Nat) : List RxPostCall :=
  oneBuffer :: (List.replicate numItems (.pktid (.reserve none)) ++ lostEnd)

theorem run_lostCalls {maxItems itemLen numItems : Nat} (some_ : 3 < maxItems) (narrow : maxItems < 2 ^ 16)
    (sized : 0 < itemLen) (keys : 1 ≤ numItems) (bounded : numItems ≤ maxPktidItems) :
    rxPostMachine.Admitted (rxPostInit maxItems itemLen numItems 0 none) (lostCalls numItems) ∧
      ¬ EpochsConsecutive (rxPostMachine.run (rxPostInit maxItems itemLen numItems 0 none)
        (lostCalls numItems)).announcedItems := by
  have start := @rxPostInit_valid maxItems itemLen numItems 0 none (by omega) narrow sized keys bounded
  have room : (rxPostInit maxItems itemLen numItems 0 none).h2d.unread.length + 1 <
      (rxPostInit maxItems itemLen numItems 0 none).h2d.ring.maxItems := by
    change 0 + 1 < maxItems
    omega
  obtain ⟨answer, first⟩ := post_oneBuffer start room
  have one : min 1 (rxPostInit maxItems itemLen numItems 0 none).pktidMap.avail = 1 := Nat.min_eq_left keys
  rw [one] at first
  obtain ⟨item, log, epoch⟩ := first.one
  obtain ⟨map, taken, avail⟩ :=
    run_reserve numItems (rxPostMachine.next (rxPostInit maxItems itemLen numItems 0 none) oneBuffer)
  have admitted :=
    admitted_reserve numItems (rxPostMachine.next (rxPostInit maxItems itemLen numItems 0 none) oneBuffer)
  have valid := rxPostMachine.run_invariant rxPostMachine_preserves first.invariant admitted
  rw [taken] at valid
  have empty : map.avail = 0 := by
    have all : (rxPostInit maxItems itemLen numItems 0 none).pktidMap.avail = numItems := rfl
    rw [avail, first.avail, all]
    omega
  have still : (rxPostMachine.next (rxPostInit maxItems itemLen numItems 0 none) oneBuffer).h2d.unread.length + 1 <
      (rxPostMachine.next (rxPostInit maxItems itemLen numItems 0 none) oneBuffer).h2d.ring.maxItems := by
    rw [first.unread, first.maxItems]
    change 0 + 1 + 1 < maxItems
    omega
  obtain ⟨ends, last, lastLog, lastEpoch⟩ := run_lostEnd valid empty still
  unfold lostCalls
  rw [Machine.admitted_cons, Machine.run_cons, Machine.run_append, Machine.admitted_append, taken]
  refine ⟨⟨⟨Nat.le_refl 1, by decide⟩, admitted, ends⟩, fun consecutive => ?_⟩
  rw [lastLog] at consecutive
  change EpochsConsecutive
    ((rxPostMachine.next (rxPostInit maxItems itemLen numItems 0 none) oneBuffer).announcedItems ++ [last])
    at consecutive
  rw [log] at consecutive
  have follows : last.epoch = (item.epoch + 1) % h2dEpochModulo := consecutive 0 (Nat.lt_add_one 1)
  change last.epoch =
    ((rxPostMachine.next (rxPostInit maxItems itemLen numItems 0 none) oneBuffer).seqnum + 1) % 2 ^ 32 %
    h2dEpochModulo at lastEpoch
  rw [first.seqnum] at lastEpoch
  have number : (rxPostInit maxItems itemLen numItems 0 none).seqnum = 254 := rfl
  rw [number] at lastEpoch epoch
  rw [lastEpoch, epoch] at follows
  exact absurd follows (by decide)

/-- The driver's ring and map: the epochs of two items follow each other with a gap. -/
theorem epochs_lose_number : ¬ ∀ calls, rxPostMachine.Admitted (rxPostInit 512 32 maxPktidItems 0 none) calls →
    EpochsConsecutive (rxPostMachine.run (rxPostInit 512 32 maxPktidItems 0 none) calls).announcedItems := by
  intro all
  have lost := @run_lostCalls 512 32 maxPktidItems (by decide) (by decide) (by decide) (by decide) (Nat.le_refl _)
  exact lost.2 (all _ lost.1)

end BcmDhd.Msgbuf
