import BcmDhd.Wlfc.Hanger

/-! Power-save queues. Sub-queue `2 * ac` of an entry holds delayed packets,
sub-queue `2 * ac + 1` packets that the dongle suppressed. -/

namespace BcmDhd.Wlfc

def psqSupIdx (prec : Nat) : Nat := prec * 2 + 1

def psqDlyIdx (prec : Nat) : Nat := prec * 2

def dhdWlfcAdjustedSeq (pkts : Nat → Pkt) (currentSeq : UInt8) (p : Nat) : Nat :=
  let seq := (pkts p).h2dtag.freerunctr
  if seq < currentSeq then seq.toNat + 256 else seq.toNat

/-- Before the first packet with a sequence number that is not smaller. -/
def insertBySeq (adjusted : Nat → Nat) (p : Nat) : List Nat → List Nat
  | [] => [p]
  | p2 :: rest =>
    if adjusted p > adjusted p2 then p2 :: insertBySeq adjusted p rest else p :: p2 :: rest

/-- The sub-queue after the enqueue. Suppressed packets are put in order if asked for. -/
def dhdWlfcPrecEnque (pkts : Nat → Pkt) (packets : List Nat) (prec p : Nat) (qHead : Bool)
    (currentSeq : UInt8) (reOrder : Bool) : List Nat :=
  let adjusted := dhdWlfcAdjustedSeq pkts currentSeq
  let plain := if qHead then p :: packets else packets ++ [p]
  match if qHead then packets.head? else packets.getLast? with
  | none => [p]
  | some p2 =>
    if reOrder ∧ prec % 2 = 1 ∧
        ((qHead ∧ adjusted p + 1 > adjusted p2) ∨ (¬ qHead ∧ adjusted p2 + 1 > adjusted p)) then
      insertBySeq adjusted p packets
    else plain

def etherIsmulti (ea : List UInt8) : Bool := (ea.head?.getD 0) % 2 = 1

def wlcEIfRoleSta : Nat := 0

def wlcEIfRoleP2pGo : Nat := 3

def wlcEIfRoleP2pClient : Nat := 4

/-- The interface's own entry serves multicast, and all traffic of a station or
P2P client. -/
def interfaceServes (ctx : Ctx) (pkt : Pkt) : Bool :=
  let interface := ctx.entries (interfaceEntry pkt.ifidx)
  (interface.iftype = wlcEIfRoleSta ∨ etherIsmulti pkt.dstn ∨
    interface.iftype = wlcEIfRoleP2pClient) ∧ interface.occupied

def findNode (ctx : Ctx) (pkt : Pkt) : Option Nat :=
  (List.range wlfcMacDescTableSize).find? fun i =>
    (ctx.entries i).occupied ∧ (ctx.entries i).interfaceId = pkt.ifidx ∧
      (ctx.entries i).ea = pkt.dstn

/-- The entry of a packet that has none yet. -/
def lookUpEntry (ctx : Ctx) (pkt : Pkt) : Nat :=
  let served := interfaceServes ctx pkt
  if served ∧ etherIsmulti pkt.dstn then interfaceEntry pkt.ifidx
  else
    match findNode ctx pkt with
    | some node => node
    | none => if served then interfaceEntry pkt.ifidx else otherEntry

/-- The entry that was found is saved in the packet. -/
def dhdWlfcFindTableEntry (ctx : Ctx) (p : Nat) : Ctx × Nat :=
  let pkt := ctx.pkts p
  match pkt.entry with
  | some e => (ctx, e)
  | none =>
    let e := lookUpEntry ctx pkt
    (ctx.setPkt p { pkt with entry := some e }, e)

/-- A suppressed packet leaves the hanger. -/
def popSuppressed (ctx : Ctx) (prec p : Nat) : Ctx :=
  if ¬ ctx.mode.afq ∧ prec % 2 = 1 then
    (dhdWlfcHangerPoppkt ctx (ctx.pkts p).h2dtag.hslot true).1
  else ctx

/-- `bPktInQ` tells whether the packet still counts as queued. -/
def dhdWlfcPrecDrop (ctx : Ctx) (prec p : Nat) (bPktInQ : Bool) : Ctx :=
  let popped := popSuppressed ctx prec p
  let counted := if bPktInQ then popped.countQueued (-1) p (prec / 2) else popped
  (counted.countInDrv (-1) (ctx.pkts p).ifidx (ctx.pkts p).fifo).txcomplete p

/-- The place and the number of the packets to drop: the first one that is no
fragment, or else the first whole set of fragments. -/
def dropScan (i : Nat) (first : Option Nat) : List PktFrag → Option (Nat × Nat)
  | [] => none
  | .none :: _ => some (i, 1)
  | .first :: rest =>
    match first with
    | some start => some (start, i - start)
    | none => dropScan (i + 1) (some i) rest
  | .cont :: rest => dropScan (i + 1) first rest
  | .last :: rest =>
    match first with
    | some start => some (start, i + 1 - start)
    | none => dropScan (i + 1) first rest

def dropRange (frags : List PktFrag) : Nat × Nat := (dropScan 0 none frags).getD (0, 1)

/-- Each packet is unlinked and then dropped. -/
def dhdPrecDropPkts (ctx : Ctx) (e prec : Nat) : Ctx :=
  let packets := (ctx.entries e).psq prec
  let range := dropRange (packets.map fun p => (ctx.pkts p).frag)
  let dropped := (packets.drop range.1).take range.2
  let unlinked := ctx.setPsq e prec (packets.take range.1 ++ packets.drop (range.1 + range.2))
  dropped.foldl (fun ctx p => dhdWlfcPrecDrop ctx prec p true) unlinked

/-- The sub-queue to evict from: none is needed, this one, or none can be had. -/
inductive Evict
  | room
  | from (prec : Nat)
  | refuse
  deriving DecidableEq

/-- `pktq_peek_tail` gives the lowest precedence that has packets. -/
def chooseEvict (psq : Nat → List Nat) (prec : Nat) : Evict :=
  if (psq prec).length < wlfcPsqLen ∧ psqLen psq < wlfcPsqLen then .room
  else if (psq prec).length ≥ wlfcPsqLen then .from prec
  else
    match (List.range wlfcPsqPrecCount).find? fun eprec => psq eprec ≠ [] with
    | none => .refuse
    | some eprec =>
      if eprec > prec then if psq prec ≠ [] then .from prec else .refuse else .from eprec

def enqueCounted (ctx : Ctx) (e p prec : Nat) (qHead : Bool) (currentSeq : UInt8) : Ctx :=
  (ctx.setPsq e prec (dhdWlfcPrecEnque ctx.pkts ((ctx.entries e).psq prec) prec p qHead currentSeq
    ctx.mode.reordersupp)).countQueued 1 p (prec / 2)

def dhdWlfcPrecEnqWithDrop (ctx : Ctx) (e p prec : Nat) (qHead : Bool) (currentSeq : UInt8) :
    Ctx × Bool :=
  match chooseEvict (ctx.entries e).psq prec with
  | .room => (enqueCounted ctx e p prec qHead currentSeq, true)
  | .from eprec => (enqueCounted (dhdPrecDropPkts ctx e eprec) e p prec qHead currentSeq, true)
  | .refuse => (ctx, false)

/-- The pending bitmap of a closed destination follows its queues. -/
def pendingBmp (entry : MacDescriptor) (prec : Nat) : UInt8 :=
  let bit : UInt8 := UInt8.ofNat (2 ^ prec)
  if entry.state = .closed then
    if entry.psq (psqDlyIdx prec) = [] ∧ entry.psq (psqSupIdx prec) = [] then
      entry.trafficPendingBmp &&& ~~~bit
    else entry.trafficPendingBmp ||| bit
  else entry.trafficPendingBmp

/-- A change of the bitmap is reported at once, in a packet of its own. -/
def dhdWlfcTrafficPendingCheck (entry : MacDescriptor) (prec : Nat) : MacDescriptor :=
  let pending := pendingBmp entry prec
  let report := pending ≠ entry.trafficPendingBmp ∧ entry.trafficLastreportedBmp ≠ pending
  { entry with
    trafficPendingBmp := pending
    trafficLastreportedBmp := if report then pending else entry.trafficLastreportedBmp
    sendTimSignal := if report then false else entry.sendTimSignal }

def checkTraffic (ctx : Ctx) (e prec : Nat) : Ctx :=
  ctx.setEntry e (dhdWlfcTrafficPendingCheck (ctx.entries e) prec)

/-- The common course of `_dhd_wlfc_enque_suppressed` and `_dhd_wlfc_enque_delayq`. -/
def enqueSubqueue (ctx : Ctx) (p prec ac : Nat) : Ctx × Int :=
  let found := dhdWlfcFindTableEntry ctx p
  let e := found.2
  match dhdWlfcPrecEnqWithDrop found.1 e p prec false ((found.1.entries e).seq ac) with
  | (after, true) => (checkTraffic after e ac, bcmeOk)
  | (after, false) => (after, bcmeError)

def dhdWlfcEnqueSuppressed (ctx : Ctx) (prec p : Nat) : Ctx × Int :=
  enqueSubqueue ctx p (psqSupIdx prec) prec

def dhdWlfcEnqueDelayq (ctx : Ctx) (p prec : Nat) : Ctx × Int :=
  enqueSubqueue ctx p (psqDlyIdx prec) prec

/-- A closed destination takes packets only as far as it asked for them. -/
def dhdWlfcIsDestinationOpen (ctx : Ctx) (e prec : Nat) : Bool :=
  let entry := ctx.entries e
  let asleep := entry.state = .closed ∧ entry.requestedCredit = 0 ∧ entry.requestedPacket = 0
  if entry.interfaceId ≥ wlfcMaxIfnum then true
  else if (ctx.entries (interfaceEntry entry.interfaceId)).iftype = wlcEIfRoleP2pGo ∧ asleep then false
  else if asleep ∨ entry.acBitmap &&& UInt8.ofNat (2 ^ prec) = 0 then false
  else true

structure CommitInfo where
  needsHdr : Bool
  acFifoCreditSpent : Bool
  macEntry : Nat
  p : Nat
  deriving DecidableEq

/-- A packet of this precedence counts against the credits, if its destination is open. -/
def creditSpent (ctx : Ctx) (prec : Nat) : Bool := ¬ (prec = acCount ∧ ¬ ctx.bcmcCreditSupported)

/-- A requested credit is used up, or else a requested packet. -/
def takeRequest (ctx : Ctx) (e p : Nat) : Ctx :=
  let entry := ctx.entries e
  if entry.requestedCredit > 0 then
    ctx.setEntry e { entry with requestedCredit := entry.requestedCredit - 1 }
  else if entry.requestedPacket > 0 then
    (ctx.setEntry e { entry with requestedPacket := entry.requestedPacket - 1 }).setPkt p
      { ctx.pkts p with onetimepktrqst := true }
  else ctx

def pickUp (ctx : Ctx) (e prec sub : Nat) (p : Nat) (rest : List Nat) : Ctx :=
  checkTraffic ((takeRequest (ctx.setPsq e sub rest) e p).countQueued (-1) p prec) e prec

def eligible (ctx : Ctx) (e prec : Nat) : Bool :=
  let entry := ctx.entries e
  entry.occupied ∧ dhdWlfcIsDestinationOpen ctx e prec ∧ entry.transitCount < freerunctrMask ∧
    ¬ entry.suppressed

/-- The body of the loop of `_dhd_wlfc_deque_delayedq`. Suppressed packets go first. -/
def dequeFrom (ctx : Ctx) (prec e : Nat) : Option (Ctx × CommitInfo) :=
  let entry := ctx.entries e
  if eligible ctx e prec then
    let spent := creditSpent ctx prec ∧ entry.state ≠ .closed
    match entry.psq (psqSupIdx prec) with
    | p :: rest => some (pickUp ctx e prec (psqSupIdx prec) p rest, ⟨false, spent, e, p⟩)
    | [] =>
      match entry.psq (psqDlyIdx prec) with
      | p :: rest => some (pickUp ctx e prec (psqDlyIdx prec) p rest, ⟨true, spent, e, p⟩)
      | [] => none
  else none

def dequeRequested (ctx : Ctx) (prec : Nat) : List Nat → Ctx × Option CommitInfo
  | [] => (ctx, none)
  | e :: rest =>
    match dequeFrom ctx prec e with
    | some (after, info) => (after, some info)
    | none => dequeRequested ctx prec rest

/-- The head moves on with every entry that is looked at. -/
def dequeActive (prec : Nat) : Nat → Ctx → Ctx × Option CommitInfo
  | 0, ctx => (ctx, none)
  | left + 1, ctx =>
    match ctx.activeEntries with
    | [] => (ctx, none)
    | e :: rest =>
      let moved := { ctx with activeEntries := rest ++ [e] }
      match dequeFrom moved prec e with
      | some (after, info) => (after, some info)
      | none => dequeActive prec left moved

/-- Without credit only the entries that asked for packets are searched. -/
def dhdWlfcDequeDelayedq (ctx : Ctx) (prec : Nat) (onlyNoCredit : Bool) : Ctx × Option CommitInfo :=
  if onlyNoCredit then dequeRequested ctx prec ctx.requestedEntries
  else dequeActive prec ctx.activeEntries.length ctx

theorem takeRequest_psq (ctx : Ctx) (e p other : Nat) :
    ((takeRequest ctx e p).entries other).psq = (ctx.entries other).psq := by
  unfold takeRequest
  dsimp only
  by_cases same : other = e
  · subst same
    split
    · simp [Ctx.setEntry]
    · split
      · simp [Ctx.setEntry, Ctx.setPkt]
      · rfl
  · split
    · simp [Ctx.setEntry, same]
    · split
      · simp [Ctx.setEntry, Ctx.setPkt, same]
      · rfl

theorem checkTraffic_psq (ctx : Ctx) (e prec other : Nat) :
    ((checkTraffic ctx e prec).entries other).psq = (ctx.entries other).psq := by
  by_cases same : other = e
  · subst same
    simp [checkTraffic, Ctx.setEntry, dhdWlfcTrafficPendingCheck]
  · simp [checkTraffic, Ctx.setEntry, same]

theorem psq_setPsq (ctx : Ctx) (e sub : Nat) (packets : List Nat) (other prec : Nat) :
    ((ctx.setPsq e sub packets).entries other).psq prec =
      if other = e ∧ prec = sub then packets else (ctx.entries other).psq prec := by
  by_cases same : other = e
  · subst same
    by_cases here : prec = sub
    · simp [Ctx.setPsq, Ctx.setEntry, here]
    · simp [Ctx.setPsq, Ctx.setEntry, here]
  · simp [Ctx.setPsq, Ctx.setEntry, same]

theorem pickUp_psq (ctx : Ctx) (e prec sub p : Nat) (rest : List Nat) (other prec' : Nat) :
    ((pickUp ctx e prec sub p rest).entries other).psq prec' =
      if other = e ∧ prec' = sub then rest else (ctx.entries other).psq prec' := by
  rw [pickUp, checkTraffic_psq]
  change ((takeRequest (ctx.setPsq e sub rest) e p).entries other).psq prec' = _
  rw [takeRequest_psq, psq_setPsq]

/-- What is known of a packet that was dequeued, and of the entry it came from. -/
theorem dequeFrom_cases {ctx after : Ctx} {prec e : Nat} {info : CommitInfo}
    (dequeued : dequeFrom ctx prec e = some (after, info)) :
    eligible ctx e prec = true ∧ info.macEntry = e ∧
    info.acFifoCreditSpent = decide (creditSpent ctx prec = true ∧ (ctx.entries e).state ≠ .closed) ∧
    ∃ sub rest, (ctx.entries e).psq sub = info.p :: rest ∧
      after = pickUp ctx e prec sub info.p rest ∧
      (info.needsHdr = false ∧ sub = psqSupIdx prec ∨ info.needsHdr = true ∧ sub = psqDlyIdx prec ∧
        (ctx.entries e).psq (psqSupIdx prec) = []) := by
  unfold dequeFrom at dequeued
  dsimp only at dequeued
  split at dequeued
  · rename_i may
    split at dequeued
    · rename_i p rest packets
      cases dequeued
      exact ⟨may, rfl, rfl, psqSupIdx prec, rest, packets, rfl, Or.inl ⟨rfl, rfl⟩⟩
    · rename_i none
      split at dequeued
      · rename_i p rest packets
        cases dequeued
        exact ⟨may, rfl, rfl, psqDlyIdx prec, rest, packets, rfl, Or.inr ⟨rfl, rfl, none⟩⟩
      · cases dequeued
  · cases dequeued

theorem dequeRequested_cases {ctx : Ctx} {prec : Nat} {entries : List Nat} :
    (∃ e ∈ entries, ∃ after info, dequeFrom ctx prec e = some (after, info) ∧
      dequeRequested ctx prec entries = (after, some info)) ∨
    dequeRequested ctx prec entries = (ctx, none) := by
  induction entries with
  | nil => exact Or.inr rfl
  | cons e rest ih =>
    unfold dequeRequested
    split
    · rename_i after info found
      exact Or.inl ⟨e, List.mem_cons_self, after, info, found, rfl⟩
    · rcases ih with ⟨other, member, found⟩ | none
      · exact Or.inl ⟨other, List.mem_cons_of_mem e member, found⟩
      · exact Or.inr none

/-- The search among the active entries turns their list, and takes from one of them. -/
theorem dequeActive_cases (ctx : Ctx) (prec left : Nat) :
    ∃ actives, actives.Perm ctx.activeEntries ∧
      ((∃ e ∈ ctx.activeEntries, ∃ after info,
        dequeFrom { ctx with activeEntries := actives } prec e = some (after, info) ∧
        dequeActive prec left ctx = (after, some info)) ∨
      dequeActive prec left ctx = ({ ctx with activeEntries := actives }, none)) := by
  induction left generalizing ctx with
  | zero => exact ⟨_, List.Perm.refl _, Or.inr rfl⟩
  | succ left ih =>
    unfold dequeActive
    split
    · exact ⟨_, List.Perm.refl _, Or.inr rfl⟩
    · rename_i e rest entries
      have turned : (rest ++ [e]).Perm ctx.activeEntries := by
        rw [entries]
        exact List.perm_append_singleton e rest
      dsimp only
      split
      · rename_i after info found
        exact ⟨_, turned, Or.inl ⟨e, by simp [entries], after, info, found, rfl⟩⟩
      · obtain ⟨actives, more, here⟩ := ih { ctx with activeEntries := rest ++ [e] }
        refine ⟨actives, more.trans turned, here.imp_left ?_⟩
        rintro ⟨other, member, found⟩
        exact ⟨other, turned.mem_iff.mp member, found⟩

theorem dhdWlfcDequeDelayedq_cases (ctx : Ctx) (prec : Nat) (onlyNoCredit : Bool) :
    ∃ actives, actives.Perm ctx.activeEntries ∧
      ((∃ e, (e ∈ ctx.requestedEntries ∨ onlyNoCredit = false ∧ e ∈ ctx.activeEntries) ∧
        ∃ after info, dequeFrom { ctx with activeEntries := actives } prec e = some (after, info) ∧
        dhdWlfcDequeDelayedq ctx prec onlyNoCredit = (after, some info)) ∨
      dhdWlfcDequeDelayedq ctx prec onlyNoCredit = ({ ctx with activeEntries := actives }, none)) := by
  unfold dhdWlfcDequeDelayedq
  split
  · refine ⟨_, List.Perm.refl _, dequeRequested_cases.imp_left ?_⟩
    rintro ⟨e, member, found⟩
    exact ⟨e, Or.inl member, found⟩
  · rename_i funded
    obtain ⟨actives, turned, here⟩ := dequeActive_cases ctx prec ctx.activeEntries.length
    refine ⟨actives, turned, here.imp_left ?_⟩
    rintro ⟨e, member, found⟩
    exact ⟨e, Or.inr ⟨by simpa using funded, member⟩, found⟩

end BcmDhd.Wlfc
