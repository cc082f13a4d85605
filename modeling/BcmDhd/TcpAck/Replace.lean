import BcmDhd.TcpAck.TableCount

namespace BcmDhd.TcpAck

open BcmDhd.Lib Function

variable {base : UInt32} {frame : Frame}

/-- The bytes behind the Ethernet header are the same up to `count`. -/
def Frame.SameIp (one other : Frame) (count : Nat) : Prop :=
  ∀ place, etherHdrLen ≤ place → place < etherHdrLen + count → one.data place = other.data place

namespace Frame.SameIp

variable {one other : Frame} {count : Nat}

section

variable (same : one.SameIp other count)
include same

theorem ntoh16_eq {place : Nat} (above : etherHdrLen ≤ place)
    (inside : place + 2 ≤ etherHdrLen + count) : ntoh16 one.data place = ntoh16 other.data place := by
  unfold ntoh16
  rw [same place above (by omega), same (place + 1) (by omega) (by omega)]

theorem load_eq {place size : Nat} (above : etherHdrLen ≤ place)
    (inside : place + size ≤ etherHdrLen + count) :
    load one.data place size = load other.data place size :=
  Bytes.load_congr fun at_ low high => same at_ (by omega) (by omega)

theorem ipHdrLen_eq (long : 20 ≤ count) :
    one.ipHdrLen = other.ipHdrLen := by
  unfold ipHdrLen
  rw [same etherHdrLen (by omega) (by omega)]

theorem tcpHdr_eq (long : 20 ≤ count) :
    one.tcpHdr = other.tcpHdr := by
  unfold tcpHdr
  rw [same.ipHdrLen_eq long]

theorem ipTotalLen_eq (long : 20 ≤ count) :
    one.ipTotalLen = other.ipTotalLen :=
  same.ntoh16_eq (by omega) (by omega)

theorem ipFrag_eq (long : 20 ≤ count) : one.ipFrag = other.ipFrag :=
  same.ntoh16_eq (by omega) (by omega)

theorem ipVer_eq (long : 20 ≤ count) : one.ipVer = other.ipVer := by
  unfold ipVer
  rw [same etherHdrLen (by omega) (by omega)]

theorem ipProt_eq (long : 20 ≤ count) :
    one.ipProt = other.ipProt := by
  unfold ipProt
  rw [same (etherHdrLen + 9) (by omega) (by omega)]

end

variable (whole : other.ipHdrLen + 20 ≤ count)
include whole

theorem tcpAckNum_eq (same : one.SameIp other count) (long : 20 ≤ count) :
    one.tcpAckNum = other.tcpAckNum := by
  unfold tcpAckNum ntoh32
  rw [same.tcpHdr_eq long]
  rw [same.ntoh16_eq (by unfold tcpHdr; omega) (by unfold tcpHdr; omega),
    same.ntoh16_eq (by unfold tcpHdr; omega) (by unfold tcpHdr; omega)]

theorem tcpHdrLen_eq (same : one.SameIp other count) (long : 20 ≤ count) :
    one.tcpHdrLen = other.tcpHdrLen := by
  unfold tcpHdrLen
  rw [same.tcpHdr_eq long, same _ (by unfold tcpHdr; omega) (by unfold tcpHdr; omega)]

theorem tcpFlags_eq (same : one.SameIp other count) (long : 20 ≤ count) :
    one.tcpFlags = other.tcpFlags := by
  unfold tcpFlags
  rw [same.tcpHdr_eq long, same _ (by unfold tcpHdr; omega) (by unfold tcpHdr; omega)]

theorem flow_eq (same : one.SameIp other count) (long : 20 ≤ count) : one.flow = other.flow := by
  unfold flow
  rw [same.tcpHdr_eq long, same.load_eq (by omega) (by omega),
    same.load_eq (by unfold tcpHdr; omega) (by unfold tcpHdr; omega)]

end Frame.SameIp

section

variable {old new : Frame}

theorem overwrite_sameIp (old new : Frame) : (old.overwrite new).SameIp new new.ipTotalLen := by
  intro place above inside
  have length : new.ipPacket.length = new.ipTotalLen := Bytes.length_load
  have at_ : place - etherHdrLen < new.ipPacket.length := by omega
  have stored : store old.data etherHdrLen new.ipPacket (etherHdrLen + (place - etherHdrLen)) = _ :=
    Bytes.store_inside at_
  rw [Nat.add_sub_cancel' above] at stored
  change store old.data etherHdrLen new.ipPacket place = _
  rw [stored]
  simp only [Frame.ipPacket, load, List.getElem_map, List.getElem_range]
  rw [Nat.add_sub_cancel' above]

/-- An ACK overwritten with another one of the same shape is that other one, in
its own Ethernet frame. -/
theorem overwrite_pure (looksOld : old.LooksAck) (wholeOld : old.Whole) (looks : new.LooksAck)
    (whole : new.Whole) (ipLen : new.ipHdrLen = old.ipHdrLen) (tcpLen : new.tcpHdrLen = old.tcpHdrLen) :
    (old.overwrite new).LooksAck ∧ (old.overwrite new).Whole ∧
      (old.overwrite new).flow = new.flow ∧ (old.overwrite new).tcpAckNum = new.tcpAckNum ∧
      (old.overwrite new).ipPacket = new.ipPacket := by
  have same := overwrite_sameIp old new
  have pureOld := looksOld.pure wholeOld
  have pure_ := looks.pure whole
  have ip := whole.ipHeader
  have tcp := whole.tcpHeader
  have headers := whole.headers
  unfold ipv4MinHeaderLen tcpMinHeaderLen at *
  have long : 20 ≤ new.ipTotalLen := by omega
  have room : new.ipHdrLen + 20 ≤ new.ipTotalLen := by omega
  have total := same.ipTotalLen_eq long
  have ether : (old.overwrite new).etherType = old.etherType := by
    have apart : ∀ place < 14, (old.overwrite new).data place = old.data place :=
      fun place below => Bytes.store_outside (Or.inl below)
    change ntoh16 _ 12 = ntoh16 _ 12
    unfold ntoh16
    rw [apart 12 (by omega), apart 13 (by omega)]
  obtain ⟨low, high, ethernet, _⟩ := looksOld
  obtain ⟨_, _, _, version, protocol, flags, short⟩ := looks
  refine ⟨⟨low, high, ether.trans ethernet, ?_, ?_, ?_, ?_⟩, ⟨?_, ?_, ?_, ?_, ?_⟩,
    same.flow_eq room long, same.tcpAckNum_eq room long, ?_⟩
  · rw [same.ipVer_eq long, version]
  · rw [same.ipProt_eq long, protocol]
  · rw [same.tcpFlags_eq room long, flags]
  · rw [total, same.ipHdrLen_eq long, same.tcpHdrLen_eq room long]
    exact short
  · rw [same.ipFrag_eq long]
    exact whole.unfragmented
  · rw [same.ipHdrLen_eq long]
    exact ip
  · rw [same.tcpHdrLen_eq room long]
    exact tcp
  · rw [total, same.ipHdrLen_eq long, same.tcpHdrLen_eq room long]
    exact headers
  · rw [total]
    have inside := wholeOld.inside
    have empty := pureOld.empty
    have equal := pure_.empty
    change etherHdrLen + new.ipTotalLen ≤ old.len
    omega
  · unfold Frame.ipPacket
    rw [total]
    exact same.load_eq (Nat.le_refl _) (Nat.le_refl _)

end

/-- The suppression together with the packets that wait for transmission and what
has become of the others. A consumed frame is noted with the number of frames
transmitted before it. -/
structure TxState where
  dhd : Dhd
  queue : List Nat
  sent : List Frame
  consumed : List (Frame × Nat)

inductive TxCall
  | suppress (pkt : Nat) (frame : Frame)
  | xmit (pkt : Nat)

variable {past : List TxCall}

/-- A frame that is not consumed is queued; a queued packet leaves its buffer to
the bus when it is transmitted. -/
def txStep (order : TcpSeq) (tx : TxState) : TxCall → TxState × Bool
  | .suppress pkt frame =>
    let result := dhdTcpackSuppress order (tx.dhd.arrive pkt frame) pkt frame
    if result.2 then
      ({ tx with dhd := result.1, consumed := tx.consumed ++ [(frame, tx.sent.length)] }, true)
    else ({ tx with dhd := result.1, queue := tx.queue ++ [pkt] }, false)
  | .xmit pkt =>
    match tx.dhd.frames pkt with
    | none => (tx, false)
    | some frame =>
      let dhd := (dhdTcpackCheckXmit tx.dhd pkt frame.len).1
      ({ tx with dhd := { dhd with frames := update dhd.frames pkt none },
                 queue := tx.queue.erase pkt, sent := tx.sent ++ [frame] }, false)

/-- A packet that is handed over is not one that is queued; one that is
transmitted is. -/
def TxAdmits (tx : TxState) : TxCall → Prop
  | .suppress pkt _ => tx.dhd.frames pkt = none
  | .xmit pkt => pkt ∈ tx.queue

instance (tx : TxState) (call : TxCall) : Decidable (TxAdmits tx call) :=
  match call with
  | .suppress pkt _ => decidable_of_iff ((tx.dhd.frames pkt).isNone = true) Option.isNone_iff_eq_none
  | .xmit pkt => inferInstanceAs (Decidable (pkt ∈ tx.queue))

def replacing (order : TcpSeq) : Machine TxState TxCall Bool where
  step := txStep order
  admits := TxAdmits

instance (order : TcpSeq) (tx : TxState) (call : TxCall) :
    Decidable ((replacing order).admits tx call) := inferInstanceAs (Decidable (TxAdmits tx call))

def replaceStart : TxState := ⟨(dhdTcpackSuppressSet dhdStart 1 true).1, [], [], []⟩

/-- `new` may take the place of `old`: both are pure ACKs of one flow, and `new` is ahead. -/
structure Replaces (new old : Frame) : Prop where
  pureNew : new.PureAck
  pureOld : old.PureAck
  flow : old.flow = new.flow
  newer : 0 < ahead new.tcpAckNum old.tcpAckNum ∧ ahead new.tcpAckNum old.tcpAckNum ≤ 2 ^ 31

/-- What one step does to frames. -/
def Lossless (tx : TxState) : TxCall → TxState × Bool → Prop
  | .suppress pkt frame, (after, consumed) =>
    (consumed = true → after.queue = tx.queue ∧ frame.PureAck ∧
      ∃ q ∈ after.queue, ∃ carrier, after.dhd.frames q = some carrier ∧
        carrier.flow = frame.flow ∧ carrier.ipPacket = frame.ipPacket) ∧
    (consumed = false → after.queue = tx.queue ++ [pkt] ∧ after.dhd.frames pkt = some frame) ∧
    ∀ q ∈ tx.queue, after.dhd.frames q = tx.dhd.frames q ∨
      consumed = true ∧ ∃ old, tx.dhd.frames q = some old ∧ Replaces frame old
  | .xmit pkt, (after, _) =>
    after.queue = tx.queue.erase pkt ∧
      (∃ frame, tx.dhd.frames pkt = some frame ∧ after.sent = tx.sent ++ [frame]) ∧
      ∀ q ∈ after.queue, after.dhd.frames q = tx.dhd.frames q

/-- `carrier` acknowledges as much of the flow as `frame` does, counted from `base`. -/
structure Acknowledges (base : UInt32) (frame carrier : Frame) : Prop where
  pure : carrier.PureAck
  flow : carrier.flow = frame.flow
  covers : ahead frame.tcpAckNum base ≤ ahead carrier.tcpAckNum base
  window : ahead carrier.tcpAckNum base < 2 ^ 31

/-- A frame consumed after `before` transmissions is covered by a queued one or by
one that has been transmitted since. -/
def Covered (tx : TxState) (base : UInt32) (frame : Frame) (before : Nat) : Prop :=
  (∃ q ∈ tx.queue, ∃ carrier, tx.dhd.frames q = some carrier ∧ Acknowledges base frame carrier) ∨
    ∃ carrier ∈ tx.sent.drop before, Acknowledges base frame carrier

/-- The ACK numbers of a flow lie less than half a turn ahead of `base`. -/
def Window (calls : List TxCall) (flow : List UInt8 × List UInt8) (base : UInt32) : Prop :=
  ∀ pkt frame, TxCall.suppress pkt frame ∈ calls → frame.LooksAck → frame.flow = flow →
    ahead frame.tcpAckNum base < 2 ^ 31

/-- No step of the run loses or alters a frame that it must not, and every
acknowledgement stays covered. -/
structure Delivers (order : TcpSeq) (calls : List TxCall) : Prop where
  steps : ∀ past call rest, calls = past ++ call :: rest →
    Lossless ((replacing order).run replaceStart past) call
      ((replacing order).step ((replacing order).run replaceStart past) call)
  covered : ∀ past rest, calls = past ++ rest → ∀ frame before,
    (frame, before) ∈ ((replacing order).run replaceStart past).consumed →
      ∀ base, Window past frame.flow base →
        Covered ((replacing order).run replaceStart past) base frame before

/-- What holds of queue and table in replace mode. -/
structure Queued (tx : TxState) : Prop where
  mode : tx.dhd.tcpackSupMode = .replace
  present : ∃ mod, tx.dhd.tcpackSupModule = some mod
  count : tx.dhd.CountTrue
  nodup : tx.queue.Nodup
  live : ∀ q ∈ tx.queue, ∃ frame, tx.dhd.frames q = some frame
  entries : ∀ i < tcpackInfoMaxnum, ∀ pkt, (tx.dhd.tbl i).pktInQ = some pkt →
    pkt ∈ tx.queue ∧ ∃ frame, tx.dhd.frames pkt = some frame ∧ frame.LooksAck ∧ frame.Whole
  apart : ∀ i < tcpackInfoMaxnum, ∀ j < tcpackInfoMaxnum, ∀ pkt,
    (tx.dhd.tbl i).pktInQ = some pkt → (tx.dhd.tbl j).pktInQ = some pkt → i = j

/-- Everything that `dhd_tcpack_suppress` does where there is a module. -/
inductive SuppressCase (order : TcpSeq) (dhd : Dhd) (mod : TcpackSupModule) (pkt : Nat)
    (new : Frame) : Dhd × Bool → Prop
  | passed : SuppressCase order dhd mod pkt new (dhd, false)
  | replaced (i oldpkt : Nat) (old : Frame) (inside : i < mod.tcpackInfoCnt.toNat)
    (queued : (mod.tcpackInfoTbl i).pktInQ = some oldpkt) (buffer : dhd.frames oldpkt = some old)
    (flow : old.flow = new.flow) (looks : new.LooksAck)
    (newer : order.gt new.tcpAckNum old.tcpAckNum = true) (ipLen : new.ipHdrLen = old.ipHdrLen)
    (tcpLen : new.tcpHdrLen = old.tcpHdrLen) :
    SuppressCase order dhd mod pkt new
      ((dhd.arrive oldpkt (old.overwrite new)).pktfree pkt, true)
  | entered (looks : new.LooksAck) (room : mod.tcpackInfoCnt.toNat < tcpackInfoMaxnum) :
    SuppressCase order dhd mod pkt new
      (dhd.withModule ((mod.setInfo mod.tcpackInfoCnt.toNat
        { mod.tcpackInfoTbl mod.tcpackInfoCnt.toNat with pktInQ := some pkt }).count
          (mod.tcpackInfoCnt + 1)), false)

theorem dhdTcpackSuppress_case {order : TcpSeq} {dhd : Dhd} {mod : TcpackSupModule} {pkt : Nat}
    {new : Frame} (present : dhd.tcpackSupModule = some mod) :
    SuppressCase order dhd mod pkt new (dhdTcpackSuppress order dhd pkt new) := by
  unfold dhdTcpackSuppress
  split
  · exact .passed
  split
  · exact .passed
  rename_i looks
  split
  · rename_i absent
    rw [present] at absent
    cases absent
  rename_i mod' same
  cases Option.some.inj (present.symm.trans same)
  dsimp only
  split
  · rename_i i oldpkt old found
    obtain ⟨member, queued, buffer, flow⟩ := findQueued_found found
    split
    · rename_i newer
      split
      · rename_i shape
        exact .replaced i oldpkt old (List.mem_range.mp member) queued buffer flow
          (by simpa using looks) newer shape.1 shape.2
      · exact .passed
    · exact .passed
  · exact .passed
  · split
    · rename_i room
      exact .entered (by simpa using looks) room
    · exact .passed

section

variable {order : TcpSeq} {tx : TxState} {mod : TcpackSupModule} {pkt i : Nat} {new : Frame}

theorem TcpSeq.ahead_of_gt (order : TcpSeq) {newer older : UInt32}
    (gt : order.gt newer older = true) :
    0 < ahead newer older ∧ ahead newer older ≤ 2 ^ 31 := by
  constructor
  · by_contra none_
    have same : newer - older = 0 := UInt32.toNat_inj.mp (by unfold ahead at none_; simpa using none_)
    have equal : newer = older := by rw [← UInt32.sub_add_cancel newer older, same, UInt32.zero_add]
    rw [equal, order.gt_same] at gt
    cases gt
  · by_contra far
    rw [order.gt_far newer older (by omega)] at gt
    cases gt

theorem ahead_mono {newer older : UInt32} (gt : 0 < ahead newer older ∧ ahead newer older ≤ 2 ^ 31)
    (near : ahead newer base < 2 ^ 31) (before : ahead older base < 2 ^ 31) :
    ahead older base ≤ ahead newer base := by
  have one := UInt32.toNat_sub newer older
  have two := UInt32.toNat_sub newer base
  have three := UInt32.toNat_sub older base
  have small := newer.toNat_lt
  have low := older.toNat_lt
  have least := base.toNat_lt
  unfold ahead at *
  omega

theorem Queued.inside (queued : Queued tx) (present : tx.dhd.tcpackSupModule = some mod)
    (below : i < mod.tcpackInfoCnt.toNat) : i < tcpackInfoMaxnum := by
  have high := (queued.count mod present).high
  omega

theorem Queued.fresh_not_queued (queued : Queued tx) (fresh : tx.dhd.frames pkt = none) :
    pkt ∉ tx.queue := by
  intro member
  obtain ⟨frame, buffer⟩ := queued.live pkt member
  rw [fresh] at buffer
  cases buffer

theorem suppressStep_passed (queued : Queued tx)
    (fresh : tx.dhd.frames pkt = none) :
    Queued { tx with dhd := tx.dhd.arrive pkt new, queue := tx.queue ++ [pkt] } := by
  have outside := queued.fresh_not_queued fresh
  have kept : ∀ q ∈ tx.queue, (tx.dhd.arrive pkt new).frames q = tx.dhd.frames q := by
    intro q member
    exact update_of_ne (fun same => outside (by rw [← same]; exact member)) _ _
  refine ⟨queued.mode, queued.present, queued.count, ?_, ?_, ?_, queued.apart⟩
  · rw [List.nodup_append]
    refine ⟨queued.nodup, List.nodup_singleton pkt, fun q member other last => ?_⟩
    rw [List.mem_singleton.mp last]
    rintro rfl
    exact outside member
  · intro q member
    rcases List.mem_append.mp member with before | last
    · rw [kept q before]
      exact queued.live q before
    · rw [List.mem_singleton.mp last]
      exact ⟨new, update_self _ _ _⟩
  · intro i inside held here
    obtain ⟨member, frame, buffer, looks⟩ := queued.entries i inside held here
    exact ⟨List.mem_append_left _ member, frame, by rw [kept held member]; exact buffer, looks⟩

theorem replaced_frames (dhd : Dhd) (pkt : Nat) (new old : Frame) {oldpkt : Nat}
    (apart : oldpkt ≠ pkt) :
    (((dhd.arrive pkt new).arrive oldpkt (old.overwrite new)).pktfree pkt).frames oldpkt =
        some (old.overwrite new) ∧
      ∀ q, q ≠ pkt → q ≠ oldpkt →
        (((dhd.arrive pkt new).arrive oldpkt (old.overwrite new)).pktfree pkt).frames q =
          dhd.frames q := by
  refine ⟨?_, fun q other also => ?_⟩
  · change update (update (update dhd.frames pkt (some new)) oldpkt
      (some (old.overwrite new))) pkt none oldpkt = _
    rw [update_of_ne apart, update_self]
  · change update (update (update dhd.frames pkt (some new)) oldpkt
      (some (old.overwrite new))) pkt none q = _
    rw [update_of_ne other, update_of_ne also, update_of_ne other]

theorem suppressStep_replaced (queued : Queued tx) (fresh : tx.dhd.frames pkt = none)
    {oldpkt : Nat} {old : Frame} (member : oldpkt ∈ tx.queue)
    (pure_ : (old.overwrite new).LooksAck ∧ (old.overwrite new).Whole)
    (consumed : List (Frame × Nat)) :
    Queued { tx with
      dhd := ((tx.dhd.arrive pkt new).arrive oldpkt (old.overwrite new)).pktfree pkt,
      consumed := consumed } := by
  have outside := queued.fresh_not_queued fresh
  have apart : oldpkt ≠ pkt := fun same => outside (by rw [← same]; exact member)
  obtain ⟨own, others⟩ := replaced_frames tx.dhd pkt new old apart
  have kept : ∀ q ∈ tx.queue, q ≠ oldpkt →
      (((tx.dhd.arrive pkt new).arrive oldpkt (old.overwrite new)).pktfree pkt).frames q =
        tx.dhd.frames q :=
    fun q there other => others q (fun same => outside (by rw [← same]; exact there)) other
  refine ⟨queued.mode, queued.present, queued.count, queued.nodup, ?_, ?_, queued.apart⟩
  · intro q there
    by_cases same : q = oldpkt
    · subst same
      exact ⟨_, own⟩
    · obtain ⟨frame, buffer⟩ := queued.live q there
      exact ⟨frame, by rw [← buffer]; exact kept q there same⟩
  · intro i inside held here
    obtain ⟨there, frame, buffer, looks⟩ := queued.entries i inside held here
    refine ⟨there, ?_⟩
    by_cases same : held = oldpkt
    · subst same
      exact ⟨_, own, pure_⟩
    · exact ⟨frame, by rw [← buffer]; exact kept held there same, looks⟩

theorem suppressStep_entered (queued : Queued tx) (fresh : tx.dhd.frames pkt = none)
    (present : tx.dhd.tcpackSupModule = some mod) (looks : new.LooksAck) (whole : new.Whole)
    (room : mod.tcpackInfoCnt.toNat < tcpackInfoMaxnum) (info : TcpackInfo)
    (here : info.pktInQ = some pkt) :
    Queued { tx with
      dhd := (tx.dhd.arrive pkt new).withModule
        ((mod.setInfo mod.tcpackInfoCnt.toNat info).count (mod.tcpackInfoCnt + 1)),
      queue := tx.queue ++ [pkt] } := by
  have passed : Queued { tx with dhd := tx.dhd.arrive pkt new, queue := tx.queue ++ [pkt] } :=
    suppressStep_passed queued fresh
  have outside := queued.fresh_not_queued fresh
  have before := queued.count mod present
  have low := before.low
  have table : tx.dhd.tbl = mod.tcpackInfoTbl := tbl_of present
  have absent : ∀ j < tcpackInfoMaxnum, (mod.tcpackInfoTbl j).pktInQ ≠ some pkt := by
    intro j inside held
    rw [← table] at held
    exact outside (queued.entries j inside pkt held).1
  have empty : (mod.tcpackInfoTbl mod.tcpackInfoCnt.toNat).pktInQ = none := by
    have compact := before.compact queued.mode mod.tcpackInfoCnt.toNat room
    by_contra occupied
    have below := compact.mp (Option.isSome_iff_ne_none.mpr occupied)
    omega
  have read : ∀ {j held}, (update mod.tcpackInfoTbl mod.tcpackInfoCnt.toNat info j).pktInQ =
      some held → j = mod.tcpackInfoCnt.toNat ∧ held = pkt ∨
        (mod.tcpackInfoTbl j).pktInQ = some held := by
    intro j held there
    by_cases same : j = mod.tcpackInfoCnt.toNat
    · rw [same, update_self, here] at there
      exact Or.inl ⟨same, (Option.some.inj there).symm⟩
    · rw [update_of_ne same] at there
      exact Or.inr there
  refine ⟨queued.mode, ⟨_, rfl⟩, ?_, passed.nodup, passed.live, ?_, ?_⟩
  · intro mod' same
    cases Option.some.inj same
    exact before.enter room empty (by rw [here]; rfl) fun _ => by omega
  · intro j inside held there
    rcases read there with ⟨_, rfl⟩ | old
    · exact ⟨by simp, new, update_self _ _ _, looks, whole⟩
    · exact passed.entries j inside held (by
        change (tx.dhd.tbl j).pktInQ = some held
        rw [table]
        exact old)
  · intro j inside k below held first second
    rcases read first with ⟨one, same⟩ | one
    · rcases read second with ⟨two, _⟩ | two
      · rw [one, two]
      · rw [same] at two
        exact absurd two (absent k below)
    · rcases read second with ⟨_, same⟩ | two
      · rw [same] at one
        exact absurd one (absent j inside)
      · rw [← table] at one two
        exact queued.apart j inside k below held one two

/-- Where the entries come from once entry `i` has been filled with the last one. -/
theorem moved_entry {last j held : Nat}
    (here : (((if i < last then mod.setInfo i (mod.tcpackInfoTbl last) else mod).setInfo last
      .zero).tcpackInfoTbl j).pktInQ = some held) :
    ∃ k, (mod.tcpackInfoTbl k).pktInQ = some held ∧
      (k = j ∧ j ≠ last ∧ (i < last → j ≠ i) ∨ j = i ∧ k = last ∧ i < last) := by
  change (update (if i < last then mod.setInfo i (mod.tcpackInfoTbl last) else
    mod).tcpackInfoTbl last TcpackInfo.zero j).pktInQ = some held at here
  by_cases atLast : j = last
  · rw [atLast, update_self] at here
    cases here
  · rw [update_of_ne atLast] at here
    split at here
    · rename_i before
      change (update mod.tcpackInfoTbl i _ j).pktInQ = some held at here
      by_cases same : j = i
      · rw [same, update_self] at here
        exact ⟨last, here, Or.inr ⟨same, rfl, before⟩⟩
      · rw [update_of_ne same] at here
        exact ⟨j, here, Or.inl ⟨rfl, atLast, fun _ => same⟩⟩
    · rename_i notBefore
      exact ⟨j, here, Or.inl ⟨rfl, atLast, fun before => absurd before notBefore⟩⟩

/-- What is left in the table when `pkt` is transmitted. -/
structure Removed (dhd after : Dhd) (pkt : Nat) : Prop where
  mode : after.tcpackSupMode = dhd.tcpackSupMode
  present : ∃ mod, after.tcpackSupModule = some mod
  frames : after.frames = dhd.frames
  entries : ∀ i < tcpackInfoMaxnum, ∀ held, (after.tbl i).pktInQ = some held →
    held ≠ pkt ∧ ∃ k < tcpackInfoMaxnum, (dhd.tbl k).pktInQ = some held
  apart : ∀ i < tcpackInfoMaxnum, ∀ j < tcpackInfoMaxnum, ∀ held,
    (after.tbl i).pktInQ = some held → (after.tbl j).pktInQ = some held → i = j

theorem Queued.unchanged (queued : Queued tx)
    (absent : ∀ i < tcpackInfoMaxnum, (tx.dhd.tbl i).pktInQ ≠ some pkt) :
    Removed tx.dhd tx.dhd pkt :=
  ⟨rfl, queued.present, rfl, fun i inside held here =>
    ⟨fun same => absent i inside (by rw [← same]; exact here), i, inside, here⟩, queued.apart⟩

theorem checkXmit_removed (queued : Queued tx) (buffer : tx.dhd.frames pkt = some frame) :
    Removed tx.dhd (dhdTcpackCheckXmit tx.dhd pkt frame.len).1 pkt := by
  obtain ⟨mod, present⟩ := queued.present
  have table : tx.dhd.tbl = mod.tcpackInfoTbl := tbl_of present
  have before := queued.count mod present
  unfold dhdTcpackCheckXmit
  split
  · rename_i off
    rw [queued.mode] at off
    cases off
  split
  · rename_i strange
    refine queued.unchanged fun i inside here => ?_
    obtain ⟨_, other, also, looks, _⟩ := queued.entries i inside pkt here
    rw [buffer] at also
    cases also
    have low := looks.1
    have high := looks.2.1
    simp at strange
    omega
  split
  · rename_i absent
    rw [present] at absent
    cases absent
  rename_i mod' same
  cases Option.some.inj (present.symm.trans same)
  dsimp only
  split
  · rename_i missing
    refine queued.unchanged fun i inside here => ?_
    rw [table] at here
    have compact := before.compact queued.mode i inside
    have below := compact.mp (by rw [here]; rfl)
    have notFound := List.find?_eq_none.mp missing i (List.mem_range.mpr (by omega))
    exact notFound (by simp [here])
  · rename_i i found
    have below := List.mem_range.mp (List.mem_of_find?_eq_some found)
    have inside := queued.inside present below
    have hit := List.find?_some found
    have here : (mod.tcpackInfoTbl i).pktInQ = some pkt := beq_iff_eq.mp hit
    have low := before.low
    have high := before.high
    -- the entry of the packet itself is the one that is given up
    have given : ∀ {j held}, j < tcpackInfoMaxnum → (((if i < mod.tcpackInfoCnt.toNat - 1 then
        mod.setInfo i (mod.tcpackInfoTbl (mod.tcpackInfoCnt.toNat - 1)) else mod).setInfo
          (mod.tcpackInfoCnt.toNat - 1) .zero).tcpackInfoTbl j).pktInQ = some held →
        ∃ k < tcpackInfoMaxnum, k ≠ i ∧ (mod.tcpackInfoTbl k).pktInQ = some held ∧
          (k = j ∧ j ≠ mod.tcpackInfoCnt.toNat - 1 ∧ j ≠ i ∨
            j = i ∧ k = mod.tcpackInfoCnt.toNat - 1) := by
      intro j held within there
      obtain ⟨k, source, ⟨rfl, notLast, notHere⟩ | ⟨rfl, rfl, prior⟩⟩ := moved_entry there
      · have other : k ≠ i := by
          rcases Nat.lt_or_ge i (mod.tcpackInfoCnt.toNat - 1) with prior | late
          · exact notHere prior
          · omega
        exact ⟨k, within, other, source, Or.inl ⟨rfl, notLast, other⟩⟩
      · exact ⟨_, by omega, by omega, source, Or.inr ⟨rfl, rfl⟩⟩
    refine ⟨rfl, ⟨_, rfl⟩, rfl, fun j within held there => ?_, fun j within k small held one two => ?_⟩
    · obtain ⟨k, small, other, source, _⟩ := given within there
      rw [table]
      refine ⟨fun same => ?_, k, small, source⟩
      rw [same] at source
      rw [← table] at source here
      exact other (queued.apart k small i inside pkt source here)
    · obtain ⟨a, smallA, _, sourceA, placeA⟩ := given within one
      obtain ⟨b, smallB, _, sourceB, placeB⟩ := given small two
      rw [← table] at sourceA sourceB
      have same := queued.apart a smallA b smallB held sourceA sourceB
      omega

theorem xmitStep_queued (queued : Queued tx) (buffer : tx.dhd.frames pkt = some frame) :
    let dhd := (dhdTcpackCheckXmit tx.dhd pkt frame.len).1
    Queued { tx with
      dhd := { dhd with frames := update dhd.frames pkt none },
      queue := tx.queue.erase pkt, sent := tx.sent ++ [frame] } := by
  intro dhd
  have removed : Removed tx.dhd dhd pkt := checkXmit_removed queued buffer
  have counted : dhd.CountTrue := checkXmit_countTrue queued.count
  have kept : ∀ q, q ≠ pkt → update dhd.frames pkt none q = tx.dhd.frames q := by
    intro q other
    rw [update_of_ne other, removed.frames]
  refine ⟨removed.mode.trans queued.mode, removed.present, counted, queued.nodup.erase pkt, ?_, ?_,
    removed.apart⟩
  · intro q there
    have other := ((queued.nodup.mem_erase_iff).mp there).1
    obtain ⟨frame, before⟩ := queued.live q (List.mem_of_mem_erase there)
    exact ⟨frame, by rw [← before]; exact kept q other⟩
  · intro i inside held here
    obtain ⟨other, k, small, source⟩ := removed.entries i inside held here
    obtain ⟨there, frame, before, looks⟩ := queued.entries k small held source
    exact ⟨(queued.nodup.mem_erase_iff).mpr ⟨other, there⟩, frame,
      by rw [← before]; exact kept held other, looks⟩

theorem Window.of_append {more : List TxCall} {flow : List UInt8 × List UInt8}
    (window : Window (past ++ more) flow base) : Window past flow base :=
  fun pkt frame member => window pkt frame (List.mem_append_left _ member)

/-- What was consumed so far is covered, and the notes about it are in range. -/
def AllCovered (tx : TxState) (past : List TxCall) : Prop :=
  ∀ frame before, (frame, before) ∈ tx.consumed → before ≤ tx.sent.length ∧
    ∀ base, Window past frame.flow base → Covered tx base frame before

theorem Covered.keep {after : TxState} {before : Nat}
    (covered : Covered tx base frame before) (sent : after.sent = tx.sent)
    (kept : ∀ q ∈ tx.queue, q ∈ after.queue ∧ after.dhd.frames q = tx.dhd.frames q) :
    Covered after base frame before := by
  rcases covered with ⟨q, member, carrier, buffer, acknowledges⟩ | transmitted
  · obtain ⟨still, same⟩ := kept q member
    exact Or.inl ⟨q, still, carrier, by rw [same, buffer], acknowledges⟩
  · exact Or.inr (by rw [sent]; exact transmitted)

theorem Acknowledges.replace {carrier heir : Frame}
    (acknowledges : Acknowledges base frame carrier) (pure_ : heir.PureAck)
    (flow : carrier.flow = heir.flow) (newer : 0 < ahead heir.tcpAckNum carrier.tcpAckNum ∧
      ahead heir.tcpAckNum carrier.tcpAckNum ≤ 2 ^ 31)
    (near : ahead heir.tcpAckNum base < 2 ^ 31) : Acknowledges base frame heir :=
  ⟨pure_, flow.symm.trans acknowledges.flow,
    acknowledges.covers.trans (ahead_mono newer near acknowledges.window), near⟩

/-- Every packet that the code takes for an ACK is a whole IP packet. -/
def Sincere : TxCall → Prop
  | .suppress _ frame => frame.LooksAck → frame.Whole
  | .xmit _ => True

instance : DecidablePred Sincere := fun call =>
  match call with
  | .suppress _ frame => inferInstanceAs (Decidable (frame.LooksAck → frame.Whole))
  | .xmit _ => .isTrue trivial

structure TxKept (tx : TxState) (past : List TxCall) : Prop where
  queued : Queued tx
  covered : AllCovered tx past

theorem xmitStep_kept (kept : TxKept tx past) (admitted : pkt ∈ tx.queue) :
    TxKept (txStep order tx (.xmit pkt)).1 (past ++ [.xmit pkt]) ∧
      Lossless tx (.xmit pkt) (txStep order tx (.xmit pkt)) := by
  have queued := kept.queued
  obtain ⟨frame, buffer⟩ := queued.live pkt admitted
  have removed := checkXmit_removed queued buffer
  have after := xmitStep_queued queued buffer
  simp only [txStep, buffer]
  dsimp only at after
  have still : ∀ q, q ≠ pkt → update
      (dhdTcpackCheckXmit tx.dhd pkt frame.len).1.frames pkt none q = tx.dhd.frames q := by
    intro q other
    rw [update_of_ne other, removed.frames]
  refine ⟨⟨after, fun old before member => ?_⟩, rfl, ⟨frame, buffer, rfl⟩, fun q member =>
    still q ((queued.nodup.mem_erase_iff).mp member).1⟩
  obtain ⟨noted, covered⟩ := kept.covered old before member
  refine ⟨by simp; omega, fun base window => ?_⟩
  have drop : (tx.sent ++ [frame]).drop before = tx.sent.drop before ++ [frame] :=
    List.drop_append_of_le_length noted
  rcases covered base window.of_append with ⟨q, there, carrier, source, acknowledges⟩ | ⟨carrier,
      gone, acknowledges⟩
  · by_cases same : q = pkt
    · -- the covering frame is the one that leaves
      subst same
      rw [buffer] at source
      cases source
      exact Or.inr ⟨frame, by rw [drop]; simp, acknowledges⟩
    · exact Or.inl ⟨q, (queued.nodup.mem_erase_iff).mpr ⟨same, there⟩, carrier,
        (still q same).trans source, acknowledges⟩
  · exact Or.inr ⟨carrier, by rw [drop]; exact List.mem_append_left _ gone, acknowledges⟩

theorem passedStep_kept {after : Dhd} (kept : TxKept tx past) (fresh : tx.dhd.frames pkt = none)
    (queued : Queued { tx with dhd := after, queue := tx.queue ++ [pkt] })
    (frames : after.frames = (tx.dhd.arrive pkt new).frames) :
    TxKept { tx with dhd := after, queue := tx.queue ++ [pkt] } (past ++ [.suppress pkt new]) ∧
      Lossless tx (.suppress pkt new)
        ({ tx with dhd := after, queue := tx.queue ++ [pkt] }, false) := by
  have outside := kept.queued.fresh_not_queued fresh
  have still : ∀ q ∈ tx.queue, after.frames q = tx.dhd.frames q := by
    intro q member
    rw [frames]
    exact update_of_ne (fun same => outside (by rw [← same]; exact member)) _ _
  refine ⟨⟨queued, fun old before member => ?_⟩, fun consumed => (by cases consumed),
    fun _ => ⟨rfl, ?_⟩, fun q member => Or.inl (still q member)⟩
  · obtain ⟨noted, covered⟩ := kept.covered old before member
    exact ⟨noted, fun base window => (covered base window.of_append).keep rfl fun q there =>
      ⟨List.mem_append_left _ there, still q there⟩⟩
  · change after.frames pkt = some new
    rw [frames]
    exact update_self _ _ _

theorem suppressStep_kept (kept : TxKept tx past)
    (fresh : tx.dhd.frames pkt = none) (sincere : new.LooksAck → new.Whole) :
    TxKept (txStep order tx (.suppress pkt new)).1 (past ++ [.suppress pkt new]) ∧
      Lossless tx (.suppress pkt new) (txStep order tx (.suppress pkt new)) := by
  have queued := kept.queued
  obtain ⟨mod, present⟩ := queued.present
  have outside := queued.fresh_not_queued fresh
  have arrived : (tx.dhd.arrive pkt new).tcpackSupModule = some mod := present
  have case : SuppressCase order (tx.dhd.arrive pkt new) mod pkt new
    (dhdTcpackSuppress order (tx.dhd.arrive pkt new) pkt new) := dhdTcpackSuppress_case arrived
  unfold txStep
  dsimp only
  generalize dhdTcpackSuppress order (tx.dhd.arrive pkt new) pkt new = result at case
  cases case with
  | passed =>
    exact passedStep_kept kept fresh (suppressStep_passed queued fresh) rfl
  | entered looks room =>
    exact passedStep_kept kept fresh
      (suppressStep_entered queued fresh present looks (sincere looks) room _ rfl) rfl
  | replaced i oldpkt old inside held buffer flow looks newer ipLen tcpLen =>
    have within := queued.inside present inside
    have table : tx.dhd.tbl = mod.tcpackInfoTbl := tbl_of present
    obtain ⟨member, same, source, looksOld, wholeOld⟩ :=
      queued.entries i within oldpkt (by rw [table]; exact held)
    have apart : oldpkt ≠ pkt := fun equal => outside (by rw [← equal]; exact member)
    rw [show (tx.dhd.arrive pkt new).frames oldpkt = tx.dhd.frames oldpkt from
      update_of_ne apart _ _, source] at buffer
    cases buffer
    have gt := order.ahead_of_gt newer
    have pureNew := looks.pure (sincere looks)
    obtain ⟨looksAfter, wholeAfter, flowAfter, ackAfter, packetAfter⟩ :=
      overwrite_pure looksOld wholeOld looks (sincere looks) ipLen tcpLen
    have pureAfter := looksAfter.pure wholeAfter
    obtain ⟨own, others⟩ := replaced_frames tx.dhd pkt new old apart
    have still : ∀ q ∈ tx.queue, q ≠ oldpkt →
        (((tx.dhd.arrive pkt new).arrive oldpkt (old.overwrite new)).pktfree pkt).frames q =
          tx.dhd.frames q :=
      fun q there other => others q (fun equal => outside (by rw [← equal]; exact there)) other
    refine ⟨⟨suppressStep_replaced queued fresh member ⟨looksAfter, wholeAfter⟩ _,
      fun frame before noted => ?_⟩, fun _ => ⟨rfl, pureNew, oldpkt, member, _, own, flowAfter,
        packetAfter⟩, fun passed => (by cases passed), fun q there => ?_⟩
    · rcases List.mem_append.mp noted with old' | last
      · obtain ⟨range, covered⟩ := kept.covered frame before old'
        refine ⟨range, fun base window => ?_⟩
        rcases covered base window.of_append with ⟨q, there, carrier, source', acknowledges⟩ | gone
        · by_cases equal : q = oldpkt
          · subst equal
            rw [source] at source'
            cases source'
            have near := window pkt new (by simp) looks (flow.symm.trans acknowledges.flow)
            refine Or.inl ⟨q, there, _, own, acknowledges.replace pureAfter
              (flow.trans flowAfter.symm) ?_ ?_⟩
            · rw [ackAfter]
              exact gt
            · rw [ackAfter]
              exact near
          · exact Or.inl ⟨q, there, carrier, (still q there equal).trans source', acknowledges⟩
        · exact Or.inr gone
      · cases List.mem_singleton.mp last
        refine ⟨Nat.le_refl _, fun base window => ?_⟩
        have near := window pkt new (by simp) looks rfl
        exact Or.inl ⟨oldpkt, member, _, own, pureAfter, flowAfter, by rw [ackAfter],
          by rw [ackAfter]; exact near⟩
    · by_cases equal : q = oldpkt
      · subst equal
        exact Or.inr ⟨rfl, old, source, pureNew, looksOld.pure wholeOld, flow, gt⟩
      · exact Or.inl (still q there equal)

theorem txStep_kept {call : TxCall} (kept : TxKept tx past)
    (admitted : TxAdmits tx call) (sincere : Sincere call) :
    TxKept (txStep order tx call).1 (past ++ [call]) ∧ Lossless tx call (txStep order tx call) := by
  cases call with
  | suppress pkt new => exact suppressStep_kept kept admitted sincere
  | xmit pkt => exact xmitStep_kept kept admitted

end

theorem replaceStart_kept : TxKept replaceStart [] := by
  have empty : ∀ i, (replaceStart.dhd.tbl i).pktInQ = none := fun _ => rfl
  refine ⟨⟨rfl, ⟨_, rfl⟩, fun mod same => ?_, List.nodup_nil, fun q member => ?_,
    fun i _ pkt here => ?_, fun i _ _ _ pkt here => ?_⟩, fun frame before member => ?_⟩
  · cases Option.some.inj same
    exact CountTrue.zero _ _ _ fun _ _ => rfl
  · cases member
  · rw [empty i] at here
    cases here
  · rw [empty i] at here
    cases here
  · cases member

/-- In replace mode no acknowledgement is lost and no other frame touched, in any
order of frames and transmissions, as long as what looks like an ACK is a whole IP packet. -/
theorem replace_delivers {order : TcpSeq} {calls : List TxCall}
    (admitted : (replacing order).Admitted replaceStart calls)
    (sincere : ∀ call ∈ calls, Sincere call) : Delivers order calls := by
  have promised : ((replacing order).restrict fun _ => Sincere).Admitted replaceStart calls :=
    ((replacing order).admitted_restrict_iff replaceStart calls).mpr
      ⟨admitted, fun past call rest split => sincere call (by simp [split])⟩
  have preserved : ∀ tx past call, TxKept tx past →
      ((replacing order).restrict fun _ => Sincere).admits tx call →
      TxKept (((replacing order).restrict fun _ => Sincere).next tx call) (past ++ [call]) :=
    fun tx past call kept admits => (txStep_kept kept admits.1 admits.2).1
  have reached : ∀ past rest, calls = past ++ rest →
      TxKept ((replacing order).run replaceStart past) past := by
    intro past rest split
    rw [split, Machine.admitted_append] at promised
    have kept := Machine.run_calls_invariant _ preserved replaceStart_kept promised.1
    rwa [Machine.restrict_run] at kept
  refine ⟨fun past call rest split => ?_, fun past rest split frame before member base window => ?_⟩
  · have kept := reached past (call :: rest) split
    rw [split, Machine.admitted_append] at admitted
    exact (txStep_kept kept admitted.2.1 (sincere call (by simp [split]))).2
  · exact ((reached past rest split).covered frame before member).2 base window

/-- An ACK, one that replaces it, and the transmission. -/
def replacedCalls : List TxCall :=
  [.suppress 1 (.sample 0 1 10), .suppress 2 (.sample 0 1 20), .xmit 1]

theorem replace_delivers_replacedCalls : Delivers tcpSeq replacedCalls :=
  replace_delivers (by decide +kernel) (by decide +kernel)

/-- A later fragment of some IP packet whose data read like the TCP header of a
queued ACK's flow is consumed. -/
theorem replace_consumes_fragment :
    ¬ ∀ calls : List TxCall, (replacing tcpSeq).Admitted replaceStart calls →
      Delivers tcpSeq calls := by
  intro all
  have delivers := all [.suppress 1 (.sample 0 1 10), .suppress 2 (.sample 1 1 20)]
    (by decide +kernel)
  have lossless := delivers.steps [.suppress 1 (.sample 0 1 10)] (.suppress 2 (.sample 1 1 20)) [] rfl
  have consumed : ((replacing tcpSeq).step ((replacing tcpSeq).run replaceStart
      [.suppress 1 (.sample 0 1 10)]) (.suppress 2 (.sample 1 1 20))).2 = true := by decide +kernel
  have pure_ := (lossless.1 consumed).2.1
  have fragment : (Frame.sample 1 1 20).ipFrag % 0x4000 ≠ 0 := by decide +kernel
  exact fragment pure_.whole.unfragmented

end BcmDhd.TcpAck
