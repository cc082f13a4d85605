import BcmDhd.Wps.EapFragment

namespace BcmDhd.Wps

open BcmDhd.Lib BcmDhd.Lib.Bytes

variable {place start eapLen : Nat} {memory : Lib.Memory}

theorem store_apply (memory : Lib.Memory) (address : Nat) (bytes : Bytes) (place : Nat) :
    store memory address bytes place =
      if address ≤ place ∧ place < address + bytes.length then ofBytes bytes (place - address)
      else memory place := by
  by_cases inside : address ≤ place ∧ place < address + bytes.length
  · rw [if_pos inside]
    obtain ⟨low, high⟩ := inside
    have short : place - address < bytes.length := by omega
    simp [store, low, ofBytes, short]
  · rw [if_neg inside]
    exact store_outside (by omega)

theorem ofBytes_load (memory : Lib.Memory) (address count : Nat) (inside : place < count) :
    ofBytes (load memory address count) place = memory (address + place) := by
  simp [ofBytes, load, inside]

theorem ofBytes_drop (bytes : Bytes) (count place : Nat) :
    ofBytes (bytes.drop count) place = ofBytes bytes (count + place) := by
  simp [ofBytes]

theorem load_carried {address : Nat} {bytes : Bytes}
    (carried : ∀ i, i < bytes.length → memory (address + i) = ofBytes bytes i) :
    load memory address bytes.length = bytes := by
  apply List.ext_getElem
  · exact length_load
  · intro i left inside
    simpa [load, ofBytes, inside] using carried i inside

theorem wpsNtohs_wpsHtons {value : Nat} (small : value < 65536)
    (high : memory place = ofBytes (wpsHtons value) 0)
    (low : memory (place + 1) = ofBytes (wpsHtons value) 1) : wpsNtohs memory place = value := by
  have upper : (UInt8.ofNat (value / 256)).toNat = value / 256 % 256 := UInt8.toNat_ofNat'
  have lower : (UInt8.ofNat value).toNat = value % 256 := UInt8.toNat_ofNat'
  rw [wpsNtohs, high, low]
  change (UInt8.ofNat (value / 256)).toNat * 256 + (UInt8.ofNat value).toNat = value
  rw [upper, lower]
  omega

theorem wpsNtohs_congr {memory' : Lib.Memory} {place' : Nat}
    (high : memory place = memory' place') (low : memory (place + 1) = memory' (place' + 1)) :
    wpsNtohs memory place = wpsNtohs memory' place' := by
  rw [wpsNtohs, wpsNtohs, high, low]

@[simp] theorem length_eapHdrStart (code id : UInt8) (length : Nat) :
    (eapHdrStart code id length).length = 12 := rfl

section

variable (link : LinkHeader)

/-- The EAP packet of a frame, as the receiver sees it. -/
def eapPacket (frame : Bytes) : Lib.Memory := ofBytes (frame.drop link.size)

variable {link} {out : Outgoing}

theorem sendPacket_inside (start eapLen : Nat) :
    out.sendPacket link start (.inside (start + link.size)) eapLen =
      let sent := (out.msgToSend.write start (link.bytes eapLen)).touch start (link.size + eapLen)
      ({ out with msgToSend := sent, lastSent := start, lastSentLen := link.size + eapLen },
        load sent.memory start (link.size + eapLen)) := by
  simp [Outgoing.sendPacket]

theorem sendPacket_packet (inside : place < eapLen) :
    eapPacket link (out.sendPacket link start (.inside (start + link.size)) eapLen).2 place =
      out.msgToSend.memory (start + link.size + place) := by
  rw [sendPacket_inside, eapPacket, ofBytes_drop]
  dsimp only
  rw [ofBytes_load _ _ _ (by omega), FixedBuffer.touch_memory, FixedBuffer.write_memory,
    store_outside (by rw [link.sized]; omega), Nat.add_assoc]

theorem sendPacket_behind (behind : start + link.size ≤ place) :
    (out.sendPacket link start (.inside (start + link.size)) eapLen).1.msgToSend.memory place =
      out.msgToSend.memory place := by
  rw [sendPacket_inside]
  have length := link.sized eapLen
  exact store_outside (by omega)

theorem sendPacket_intact :
    (out.sendPacket link start (.inside (start + link.size)) eapLen).1.msgToSend.intact = true ↔
      out.msgToSend.intact = true ∧ start + link.size + eapLen ≤ wpsEapDataMaxLength := by
  rw [sendPacket_inside]
  simp only [FixedBuffer.touch_intact, FixedBuffer.write_intact, link.sized, Nat.add_assoc]
  constructor
  · rintro ⟨⟨intact, _⟩, room⟩
    exact ⟨intact, room⟩
  · rintro ⟨intact, room⟩
    exact ⟨⟨intact, by omega⟩, room⟩

section

variable {buffer : FixedBuffer wpsEapDataMaxLength} {eapAt messageAt length : Nat} {id flags : UInt8}

theorem createFragHdr_behind (behind : eapAt + sizeofWpsEapHdr ≤ place) :
    (createFragHdr buffer eapAt messageAt id flags length).memory place = buffer.memory place := by
  have header : sizeofWpsEapHdr = 14 := rfl
  simp only [createFragHdr, FixedBuffer.write_memory, FixedBuffer.copy_inside_memory, store_apply,
    length_wpsHtons, length_load, List.length_singleton]
  rw [if_neg (by omega), if_neg (by omega), if_neg (by omega), if_neg (by omega)]

theorem createFragHdr_flags :
    eapFlags (createFragHdr buffer eapAt messageAt id flags length).memory eapAt = flags := by
  simp only [createFragHdr, eapFlags, FixedBuffer.write_memory, store_apply, length_wpsHtons,
    List.length_singleton]
  rw [if_neg (by omega), if_pos (by omega), Nat.sub_self]
  rfl

theorem createFragHdr_length (small : length < 65536) :
    eapLength (createFragHdr buffer eapAt messageAt id flags length).memory eapAt = length := by
  apply wpsNtohs_wpsHtons small
  · simp only [createFragHdr, FixedBuffer.write_memory]
    rw [store_apply, length_wpsHtons, if_pos (by omega), Nat.sub_self]
  · simp only [createFragHdr, FixedBuffer.write_memory]
    rw [store_apply, length_wpsHtons, if_pos (by omega), Nat.add_sub_cancel_left]

theorem createFragHdr_intact :
    (createFragHdr buffer eapAt messageAt id flags length).intact = true ↔
      buffer.intact = true ∧ eapAt + sizeofWpsEapHdr ≤ wpsEapDataMaxLength ∧
        messageAt + sizeofWpsEapHdr ≤ wpsEapDataMaxLength ∧
          FixedBuffer.Apart eapAt messageAt sizeofWpsEapHdr := by
  have header : sizeofWpsEapHdr = 14 := rfl
  simp only [createFragHdr, FixedBuffer.write_intact, FixedBuffer.copy_inside_intact,
    length_wpsHtons, List.length_singleton]
  constructor
  · rintro ⟨⟨⟨copied, _⟩, _⟩, _⟩
    exact copied
  · intro copied
    have room := copied.2.1
    exact ⟨⟨⟨copied, by omega⟩, by omega⟩, by omega⟩

end

/-- The bytes of `msg` from `sent` on are still to be sent, and are where they belong. -/
structure Pending (link : LinkHeader) (out : Outgoing) (msg : Bytes) (sent : Nat) : Prop where
  next : out.nextFragToSend = link.size + 16 + sent
  left : out.fragSize = msg.length - sent
  carried : ∀ i, sent ≤ i → i < msg.length → out.msgToSend.memory (link.size + 16 + i) = ofBytes msg i
  intact : out.msgToSend.intact = true
  room : link.size + 16 + msg.length ≤ wpsEapDataMaxLength

/-- A packet that carries the `count` bytes of `msg` from `sent` on. -/
structure Fragment (packet : Lib.Memory) (msg : Bytes) (sent count : Nat) : Prop where
  length : eapLength packet 0 = sizeofWpsEapHdr + count
  data : ∀ i, i < count → packet (sizeofWpsEapHdr + i) = ofBytes msg (sent + i)

theorem Pending.maxToSend {msg : Bytes} {sent : Nat} (pending : Pending link out msg sent)
    (inside : sent < msg.length) :
    (if out.fragSize < out.eapFragThreshold then out.fragSize else (out.eapFragThreshold : Int)) =
      (min out.eapFragThreshold (msg.length - sent) : Nat) := by
  rw [pending.left]
  split
  · omega
  · omega

theorem sendNextFrag_fragment {msg : Bytes} {sent : Nat} (id : UInt8)
    (pending : Pending link out msg sent) (inside : sent < msg.length) (first : 12 ≤ sent) :
    let count := min out.eapFragThreshold (msg.length - sent)
    let next := out.sendNextFrag link id
    Fragment (eapPacket link next.2) msg sent count ∧
      eapFlags (eapPacket link next.2) 0 =
        (if out.eapFragThreshold < msg.length - sent then eapWpsFlagsMf else 0) ∧
      Pending link next.1 msg sent ∧ next.1.eapFragThreshold = out.eapFragThreshold := by
  intro count next
  have room := pending.room
  have limit : wpsEapDataMaxLength = 2048 := rfl
  have header : sizeofWpsEapHdr = 14 := rfl
  have start : out.nextFragToSend - (link.size + sizeofWpsEapHdr) = sent + 2 := by
    rw [pending.next]
    omega
  have most : (if out.fragSize < out.eapFragThreshold then out.fragSize
      else (out.eapFragThreshold : Int)) = (count : Int) := pending.maxToSend inside
  have short : ((sizeofWpsEapHdr + (count : Int)) % 65536).toNat = sizeofWpsEapHdr + count := by omega
  let flags := if (count : Int) < out.fragSize then eapWpsFlagsMf else 0
  let headed := createFragHdr out.msgToSend (sent + 2 + link.size) link.size id flags
    (sizeofWpsEapHdr + count)
  have built : next = ({ out with msgToSend := headed } : Outgoing).sendPacket link (sent + 2)
      (.inside (sent + 2 + link.size)) (sizeofWpsEapHdr + count) := by
    change out.sendNextFrag link id = _
    unfold Outgoing.sendNextFrag
    rw [most, start]
    dsimp only
    rw [short, createFragHdr_length (by omega)]
  have shown : eapLength headed.memory (sent + 2 + link.size) = sizeofWpsEapHdr + count :=
    createFragHdr_length (by omega)
  have behind : ∀ place, link.size + 16 + sent ≤ place →
      next.1.msgToSend.memory place = out.msgToSend.memory place := by
    intro place far
    rw [built, sendPacket_behind (by omega)]
    exact createFragHdr_behind (by omega)
  have packet : ∀ place, place < sizeofWpsEapHdr + count →
      eapPacket link next.2 place = headed.memory (sent + 2 + link.size + place) := by
    intro place covered
    rw [built]
    exact sendPacket_packet covered
  have marked : flags = if out.eapFragThreshold < msg.length - sent then eapWpsFlagsMf else 0 := by
    have more : (count : Int) < out.fragSize ↔ out.eapFragThreshold < msg.length - sent := by
      rw [pending.left]
      omega
    simp only [flags, more]
  refine ⟨⟨?_, ?_⟩, ?_, ⟨?_, ?_, ?_, ?_, room⟩, ?_⟩
  · rw [← shown]
    exact wpsNtohs_congr (packet 2 (by omega)) (packet 3 (by omega))
  · intro i covered
    have place : sent + 2 + link.size + (sizeofWpsEapHdr + i) = link.size + 16 + (sent + i) := by omega
    rw [packet _ (by omega), createFragHdr_behind (by omega), place]
    exact pending.carried _ (by omega) (by omega)
  · rw [eapFlags, packet 13 (by omega), ← marked]
    exact createFragHdr_flags
  · rw [built, sendPacket_inside]
    exact pending.next
  · rw [built, sendPacket_inside]
    exact pending.left
  · intro i unsent short
    rw [behind _ (by omega)]
    exact pending.carried i unsent short
  · rw [built, sendPacket_intact, createFragHdr_intact]
    refine ⟨⟨pending.intact, by omega, by omega, Or.inr (by omega)⟩, by omega⟩
  · rw [built, sendPacket_inside]

theorem Pending.advance {msg : Bytes} {sent : Nat} (pending : Pending link out msg sent) :
    Pending link (out.advance link) msg (sent + out.eapFragThreshold) := by
  have later : out.nextFragToSend ≠ link.size := by
    rw [pending.next]
    omega
  have moved : out.advance link = { out with
      nextFragToSend := out.nextFragToSend + out.eapFragThreshold
      fragSize := out.fragSize - out.eapFragThreshold } := if_neg later
  rw [moved]
  refine ⟨?_, ?_, ?_, pending.intact, pending.room⟩
  · change out.nextFragToSend + out.eapFragThreshold = _
    rw [pending.next, Nat.add_assoc]
  · change out.fragSize - (out.eapFragThreshold : Int) = _
    rw [pending.left]
    omega
  · intro i unsent inside
    exact pending.carried i (by omega) inside

end

section

variable {exceeds : Int → Int → Int → Bool} {r : Reassembly} {packet : Lib.Memory} {msg : Bytes}
  {sent count : Nat}

/-- The comparison does what it is for where no length is negative or wraps around. -/
def Compares (exceeds : Int → Int → Int → Bool) : Prop :=
  ∀ total received len : Int, 0 ≤ total → total < 65536 → 0 ≤ len → len < 65536 →
    0 ≤ received + len → received + len < 65536 →
      exceeds total received len = decide (total < received + len)

/-- The first `got` bytes of `msg` are in. -/
structure Gathered (r : Reassembly) (msg : Bytes) (got : Nat) : Prop where
  total : r.totalBytesToRecv = msg.length
  received : r.totalReceived = sizeofWpsEapHdr + got
  data : ∀ i, i < got → r.fragsReceived.memory (sizeofWpsEapHdr + i) = ofBytes msg i
  intact : r.fragsReceived.intact = true
  room : sizeofWpsEapHdr + msg.length ≤ wpsEapDataMaxLength
  nonempty : msg ≠ []

theorem Fragment.wpsLen (fragment : Fragment packet msg sent count) (small : count < 65536) :
    wpsLen packet = count := by
  rw [Wps.wpsLen, fragment.length, toUint32]
  omega

theorem copyFrag_inside {buffer : FixedBuffer wpsEapDataMaxLength} {count : Nat}
    (room : place + count ≤ wpsEapDataMaxLength) :
    copyFrag buffer place packet start count = buffer.write place (load packet start count) := by
  unfold copyFrag
  rw [if_pos (by omega), Int.toNat_natCast, Int.toNat_natCast]

/-- A fragment that fits is written behind the ones before it. -/
theorem takeData_gathered (gathered : Gathered r msg sent)
    (fragment : Fragment packet msg sent count) (fits : sent + count ≤ msg.length) :
    Gathered (r.takeData packet) msg (sent + count) := by
  have room := gathered.room
  have limit : wpsEapDataMaxLength = 2048 := rfl
  have header : sizeofWpsEapHdr = 14 := rfl
  have begun : r.totalReceived ≠ 0 := by
    rw [gathered.received]
    omega
  have same : r.takeHdr packet = r := if_neg begun
  have offset : r.lfBytes = 0 := if_neg begun
  have taken : r.copied packet = count := by
    rw [Reassembly.copied, fragment.wpsLen (by omega), offset, toUint32]
    omega
  have place : r.totalReceived = (sizeofWpsEapHdr + sent : Nat) := by
    rw [gathered.received]
    rfl
  have written : (r.takeData packet).fragsReceived =
      r.fragsReceived.write (sizeofWpsEapHdr + sent) (load packet sizeofWpsEapHdr count) := by
    unfold Reassembly.takeData
    rw [same, offset, taken]
    dsimp only
    rw [place]
    exact copyFrag_inside (by omega)
  refine ⟨?_, ?_, ?_, ?_, room, gathered.nonempty⟩
  · unfold Reassembly.takeData
    rw [same]
    exact gathered.total
  · unfold Reassembly.takeData
    rw [same, taken]
    dsimp only
    rw [place, toInt32]
    omega
  · intro i got
    rw [written, FixedBuffer.write_memory, store_apply, length_load]
    split
    · rename_i fresh
      rw [ofBytes_load _ _ _ (by omega)]
      have behind : sizeofWpsEapHdr + i - (sizeofWpsEapHdr + sent) = i - sent := by omega
      rw [behind, fragment.data _ (by omega)]
      congr 1
      omega
    · exact gathered.data i (by omega)
  · rw [written, FixedBuffer.write_intact, length_load]
    exact ⟨gathered.intact, by omega⟩

theorem processFrag_gathered (compares : Compares exceeds) (gathered : Gathered r msg sent)
    (fragment : Fragment packet msg sent count) (fits : sent + count ≤ msg.length) :
    r.processFrag exceeds packet = if eapFlags packet 0 &&& eapWpsFlagsMf ≠ 0
      then some (r.takeData packet) else some (r.takeData packet).adjustHdr := by
  have room := gathered.room
  have limit : wpsEapDataMaxLength = 2048 := rfl
  have accepted : exceeds r.totalBytesToRecv (r.totalReceived - sizeofWpsEapHdr) (wpsLen packet) =
      false := by
    rw [gathered.total, gathered.received, fragment.wpsLen (by omega),
      compares _ _ _ (by omega) (by omega) (by omega) (by omega) (by omega) (by omega)]
    simp only [decide_eq_false_iff_not]
    omega
  unfold Reassembly.processFrag
  rw [accepted]
  rfl

/-- What has been put together is the message. -/
theorem adjustHdr_message (gathered : Gathered r msg msg.length) :
    messageOf r.adjustHdr.fragsReceived.memory = msg ∧ r.adjustHdr.fragsReceived.intact = true := by
  have room := gathered.room
  have limit : wpsEapDataMaxLength = 2048 := rfl
  have header : sizeofWpsEapHdr = 14 := rfl
  have total : (r.totalReceived % 65536).toNat = sizeofWpsEapHdr + msg.length := by
    rw [gathered.received]
    omega
  have length : eapLength r.adjustHdr.fragsReceived.memory 0 = sizeofWpsEapHdr + msg.length := by
    apply wpsNtohs_wpsHtons (by omega)
    · rw [Reassembly.adjustHdr, FixedBuffer.write_memory, store_apply, length_wpsHtons, if_pos (by omega),
        total]
    · rw [Reassembly.adjustHdr, FixedBuffer.write_memory, store_apply, length_wpsHtons, if_pos (by omega),
        total]
  constructor
  · rw [messageOf, length, Nat.add_sub_cancel_left]
    apply load_carried
    intro i inside
    rw [Reassembly.adjustHdr, FixedBuffer.write_memory, store_outside (by rw [length_wpsHtons]; omega)]
    exact gathered.data i inside
  · rw [Reassembly.adjustHdr, FixedBuffer.write_intact, length_wpsHtons]
    exact ⟨gathered.intact, by omega⟩

theorem receive_more (compares : Compares exceeds) (gathered : Gathered r msg sent)
    (fragment : Fragment packet msg sent count) (fits : sent + count ≤ msg.length)
    (flags : eapFlags packet 0 = eapWpsFlagsMf) :
    r.receive exceeds packet = (r.takeData packet, .more) := by
  have announced : r.totalBytesToRecv ≠ 0 := by
    have some := List.length_pos_of_ne_nil gathered.nonempty
    rw [gathered.total]
    omega
  have more : eapFlags packet 0 &&& eapWpsFlagsMf ≠ 0 := by
    rw [flags]
    decide
  unfold Reassembly.receive
  rw [if_neg (fun absent => announced absent.1), if_neg announced]
  dsimp only
  rw [processFrag_gathered compares gathered fragment fits, if_pos more]
  exact if_pos more

theorem receive_whole (compares : Compares exceeds) (gathered : Gathered r msg sent)
    (fragment : Fragment packet msg sent count) (fits : sent + count = msg.length)
    (flags : eapFlags packet 0 = 0) :
    ∃ after, r.receive exceeds packet = (after, .whole) ∧
      messageOf after.fragsReceived.memory = msg ∧ after.fragsReceived.intact = true := by
  have announced : r.totalBytesToRecv ≠ 0 := by
    have some := List.length_pos_of_ne_nil gathered.nonempty
    rw [gathered.total]
    omega
  have last : ¬ eapFlags packet 0 &&& eapWpsFlagsMf ≠ 0 := by
    rw [flags]
    decide
  have complete : Gathered (r.takeData packet) msg msg.length := by
    have taken := takeData_gathered gathered fragment (by omega)
    rwa [fits] at taken
  refine ⟨{ (r.takeData packet).adjustHdr with totalReceived := 0, totalBytesToRecv := 0 }, ?_,
    adjustHdr_message complete⟩
  unfold Reassembly.receive
  rw [if_neg (fun absent => announced absent.1), if_neg announced]
  dsimp only
  rw [processFrag_gathered compares gathered fragment (by omega), if_neg last]
  exact if_neg last

end

section

variable {link : LinkHeader} {out : Outgoing} {msg : Bytes}

/-- `msg` has been built in place, behind the room for the headers and the length field. -/
structure Placed (link : LinkHeader) (out : Outgoing) (msg : Bytes) : Prop where
  carried : ∀ i, i < msg.length → out.msgToSend.memory (link.size + 16 + i) = ofBytes msg i
  intact : out.msgToSend.intact = true
  room : link.size + 16 + msg.length ≤ wpsEapDataMaxLength

/-- A packet header stands at `eapAt`, in front of the message. -/
structure Headed (out out' : Outgoing) (eapAt length behind : Nat) : Prop where
  length : eapLength out'.msgToSend.memory eapAt = length
  flags : eapFlags out'.msgToSend.memory eapAt = 0
  kept : ∀ place, behind ≤ place → out'.msgToSend.memory place = out.msgToSend.memory place
  intact : out.msgToSend.intact = true → out'.msgToSend.intact = true
  threshold : out'.eapFragThreshold = out.eapFragThreshold

theorem packetStart_le (out : Outgoing) (dataLen : Nat) : out.packetStart dataLen ≤ 2 := by
  unfold Outgoing.packetStart
  split
  · exact Nat.le_refl _
  · exact Nat.zero_le _

theorem byteAt_started {eapAt length : Nat} (code id : UInt8) (front : eapAt ≤ link.size + 2) :
    ({ out with msgToSend := out.msgToSend.write eapAt (eapHdrStart code id length) } : Outgoing).byteAt
      (.inside (link.size + 16)) wpsMsgtypeOffset =
        out.byteAt (.inside (link.size + 16)) wpsMsgtypeOffset := by
  have hdr := length_eapHdrStart code id length
  exact store_outside (by omega)

theorem createPkt_headed (code id : UInt8) (placed : Placed link out msg)
    (opcode : (messageOpcode (out.byteAt (.inside (link.size + 16)) wpsMsgtypeOffset)).isSome) :
    let created := out.createPkt link (.inside (link.size + 16)) msg.length code id
    created.2 = some (out.byteAt (.inside (link.size + 16)) wpsMsgtypeOffset) ∧
      Headed out created.1 (out.packetStart msg.length + link.size) (sizeofWpsEapHdr + msg.length)
        (link.size + 16) := by
  intro created
  have room := placed.room
  have limit : wpsEapDataMaxLength = 2048 := rfl
  have header : sizeofWpsEapHdr = 14 := rfl
  have start := packetStart_le out msg.length
  obtain ⟨operation, known⟩ := Option.isSome_iff_exists.mp opcode
  let eapAt := out.packetStart msg.length + link.size
  let headed := (out.msgToSend.write eapAt (eapHdrStart code id (sizeofWpsEapHdr + msg.length))).write
    (eapAt + 12) [operation, 0]
  have inPlace : link.size + 16 = eapAt + sizeofWpsEapHdr +
      (if msg.length < out.eapFragThreshold then 0 else eapWpsLfOffset) := by
    have offset : eapWpsLfOffset = 2 := rfl
    simp only [eapAt, Outgoing.packetStart]
    split
    · omega
    · omega
  have built : created = ({ out with msgToSend := headed },
      some (out.byteAt (.inside (link.size + 16)) wpsMsgtypeOffset)) := by
    change out.createPkt link _ _ _ _ = _
    unfold Outgoing.createPkt
    dsimp only
    rw [byteAt_started code id (by omega), known]
    dsimp only
    rw [if_pos inPlace]
  have two : ([operation, 0] : Bytes).length = 2 := rfl
  rw [built]
  refine ⟨rfl, ?_, ?_, ?_, ?_, rfl⟩
  · have start : ∀ place, place < 12 → headed.memory (eapAt + place) =
        ofBytes (eapHdrStart code id (sizeofWpsEapHdr + msg.length)) place := by
      intro place inside
      simp only [headed, FixedBuffer.write_memory]
      rw [store_apply, if_neg (by omega), store_apply, length_eapHdrStart, if_pos (by omega),
        Nat.add_sub_cancel_left]
    exact wpsNtohs_wpsHtons (by omega) (start 2 (by omega)) (start 3 (by omega))
  · simp only [headed, eapFlags, FixedBuffer.write_memory]
    have offset : eapAt + 13 - (eapAt + 12) = 1 := by omega
    have inside : eapAt + 12 ≤ eapAt + 13 ∧ eapAt + 13 < eapAt + 12 + 2 := by omega
    rw [store_apply, two, if_pos inside, offset]
    rfl
  · intro place behind
    simp only [headed, FixedBuffer.write_memory]
    rw [store_outside (by simp; omega), store_outside (by rw [length_eapHdrStart]; omega)]
  · intro intact
    simp only [headed, FixedBuffer.write_intact, length_eapHdrStart, List.length_cons, List.length_nil]
    exact ⟨⟨intact, by omega⟩, by omega⟩

theorem wpsLen_eq {count : Nat} (small : sizeofWpsEapHdr + count < 65536) :
    (((sizeofWpsEapHdr + count : Nat) - sizeofWpsEapHdr : Int) % 65536).toNat = count := by
  have header : sizeofWpsEapHdr = 14 := rfl
  omega

theorem sendMsg_eq (code id : UInt8)
    (opcode : (messageOpcode (out.byteAt (.inside (link.size + 16)) wpsMsgtypeOffset)).isSome)
    (placed : Placed link out msg) :
    ∃ created : Outgoing, Headed out created (out.packetStart msg.length + link.size)
        (sizeofWpsEapHdr + msg.length) (link.size + 16) ∧
      out.sendMsg link (.inside (link.size + 16)) msg.length code id =
        let sent := created.sendEap link (out.packetStart msg.length + link.size)
          (sizeofWpsEapHdr + msg.length)
        (sent.1, some (out.byteAt (.inside (link.size + 16)) wpsMsgtypeOffset, sent.2)) := by
  obtain ⟨known, headed⟩ := createPkt_headed code id placed opcode
  refine ⟨_, headed, ?_⟩
  have start : (out.createPkt link (.inside (link.size + 16)) msg.length code id).1.packetStart msg.length =
      out.packetStart msg.length := by
    unfold Outgoing.packetStart
    rw [headed.threshold]
  unfold Outgoing.sendMsg
  dsimp only
  rw [known]
  dsimp only
  rw [start, headed.length]

/-- A message below the threshold is sent as it is. -/
theorem sendMsg_short (code id : UInt8) (placed : Placed link out msg)
    (opcode : (messageOpcode (out.byteAt (.inside (link.size + 16)) wpsMsgtypeOffset)).isSome)
    (short : msg.length < out.eapFragThreshold) :
    ∃ sent frame, out.sendMsg link (.inside (link.size + 16)) msg.length code id =
        (sent, some (out.byteAt (.inside (link.size + 16)) wpsMsgtypeOffset, frame)) ∧
      sent.msgToSend.intact = true ∧ Fragment (eapPacket link frame) msg 0 msg.length ∧
        eapFlags (eapPacket link frame) 0 = 0 := by
  have room := placed.room
  have limit : wpsEapDataMaxLength = 2048 := rfl
  have header : sizeofWpsEapHdr = 14 := rfl
  obtain ⟨created, headed, built⟩ := sendMsg_eq code id opcode placed
  have start : out.packetStart msg.length = 2 := if_pos short
  rw [start] at headed built
  have whole : created.sendEap link (2 + link.size) (sizeofWpsEapHdr + msg.length) =
      created.sendPacket link 2 (.inside (2 + link.size)) (sizeofWpsEapHdr + msg.length) := by
    unfold Outgoing.sendEap
    dsimp only
    rw [wpsLen_eq (by omega), if_pos (by rw [headed.threshold]; omega)]
    rfl
  refine ⟨_, _, built, ?_, ⟨?_, ?_⟩, ?_⟩
  · rw [whole, sendPacket_intact]
    exact ⟨headed.intact placed.intact, by omega⟩
  · rw [whole, ← headed.length]
    exact wpsNtohs_congr (sendPacket_packet (by rw [headed.length]; omega))
      (sendPacket_packet (by rw [headed.length]; omega))
  · intro i inside
    have place : 2 + link.size + (sizeofWpsEapHdr + i) = link.size + 16 + i := by omega
    rw [whole, sendPacket_packet (by omega), place, headed.kept _ (by omega), Nat.zero_add]
    exact placed.carried i inside
  · rw [whole, eapFlags, sendPacket_packet (by omega)]
    exact headed.flags

/-- For a message as long as the threshold the packet is copied onto itself. -/
theorem sendMsg_exact (code id : UInt8) (placed : Placed link out msg)
    (opcode : (messageOpcode (out.byteAt (.inside (link.size + 16)) wpsMsgtypeOffset)).isSome)
    (same : msg.length = out.eapFragThreshold) :
    ∃ sent frame, out.sendMsg link (.inside (link.size + 16)) msg.length code id =
        (sent, some (out.byteAt (.inside (link.size + 16)) wpsMsgtypeOffset, frame)) ∧
      sent.msgToSend.intact = false := by
  have room := placed.room
  have limit : wpsEapDataMaxLength = 2048 := rfl
  have header : sizeofWpsEapHdr = 14 := rfl
  obtain ⟨created, headed, built⟩ := sendMsg_eq code id opcode placed
  have start : out.packetStart msg.length = 0 := if_neg (by omega)
  rw [start, Nat.zero_add] at headed built
  have shifted : created.sendEap link link.size (sizeofWpsEapHdr + msg.length) =
      created.sendPacket link 2 (.inside link.size) (sizeofWpsEapHdr + msg.length) := by
    unfold Outgoing.sendEap
    dsimp only
    rw [wpsLen_eq (by omega), if_pos (by rw [headed.threshold]; omega)]
    rfl
  refine ⟨_, _, built, ?_⟩
  rw [shifted]
  unfold Outgoing.sendPacket
  dsimp only
  rw [if_neg (by omega)]
  have overlap : ¬ FixedBuffer.Apart (2 + link.size) link.size (sizeofWpsEapHdr + msg.length) := by
    unfold FixedBuffer.Apart
    omega
  simp [FixedBuffer.touch, FixedBuffer.copy_overlapping overlap]

/-- The first fragment has been sent: `sent` bytes of `msg` without the length field. -/
structure Begun (link : LinkHeader) (out : Outgoing) (msg : Bytes) (sent : Nat) : Prop where
  next : out.nextFragToSend = link.size
  left : out.fragSize = msg.length
  carried : ∀ i, sent ≤ i → i < msg.length → out.msgToSend.memory (link.size + 16 + i) = ofBytes msg i
  intact : out.msgToSend.intact = true
  room : link.size + 16 + msg.length ≤ wpsEapDataMaxLength
  threshold : out.eapFragThreshold = sent + eapWpsLfOffset

theorem Begun.advance {sent : Nat} (begun : Begun link out msg sent) :
    Pending link (out.advance link) msg sent := by
  have threshold := begun.threshold
  have offset : eapWpsLfOffset = 2 := rfl
  have header : sizeofWpsEapHdr = 14 := rfl
  have moved : out.advance link = { out with
      nextFragToSend := out.nextFragToSend + (out.eapFragThreshold + sizeofWpsEapHdr)
      fragSize := out.fragSize - (out.eapFragThreshold - eapWpsLfOffset : Int) } := if_pos begun.next
  rw [moved]
  refine ⟨?_, ?_, begun.carried, begun.intact, begun.room⟩
  · change out.nextFragToSend + (out.eapFragThreshold + sizeofWpsEapHdr) = _
    rw [begun.next]
    omega
  · change out.fragSize - (out.eapFragThreshold - eapWpsLfOffset : Int) = _
    rw [begun.left]
    omega

/-- The first fragment: the header, the message's length, and the first bytes of it. -/
structure FirstFragment (packet : Lib.Memory) (msg : Bytes) (sent : Nat) : Prop where
  length : eapLength packet 0 = sizeofWpsEapHdr + (sent + eapWpsLfOffset)
  flags : eapFlags packet 0 = eapWpsFlagsMf ||| eapWpsFlagsLf
  announced : wpsNtohs packet sizeofWpsEapHdr = msg.length
  data : ∀ i, i < sent → packet (sizeofWpsEapHdr + eapWpsLfOffset + i) = ofBytes msg i

/-- A message above the threshold is announced with its first fragment. -/
theorem sendMsg_long (code id : UInt8) (placed : Placed link out msg)
    (opcode : (messageOpcode (out.byteAt (.inside (link.size + 16)) wpsMsgtypeOffset)).isSome)
    (long : out.eapFragThreshold < msg.length) (enough : eapWpsLfOffset ≤ out.eapFragThreshold) :
    ∃ sent frame, out.sendMsg link (.inside (link.size + 16)) msg.length code id =
        (sent, some (out.byteAt (.inside (link.size + 16)) wpsMsgtypeOffset, frame)) ∧
      Begun link sent msg (out.eapFragThreshold - eapWpsLfOffset) ∧
        FirstFragment (eapPacket link frame) msg (out.eapFragThreshold - eapWpsLfOffset) := by
  have room := placed.room
  have limit : wpsEapDataMaxLength = 2048 := rfl
  have header : sizeofWpsEapHdr = 14 := rfl
  have offset : eapWpsLfOffset = 2 := rfl
  obtain ⟨created, headed, built⟩ := sendMsg_eq code id opcode placed
  have start : out.packetStart msg.length = 0 := if_neg (by omega)
  rw [start, Nat.zero_add] at headed built
  have threshold := headed.threshold
  let first := ((created.msgToSend.write (link.size + 13) [eapWpsFlagsMf ||| eapWpsFlagsLf]).write
    (link.size + 2) (wpsHtons (sizeofWpsEapHdr + created.eapFragThreshold))).write
      (link.size + sizeofWpsEapHdr) (wpsHtons msg.length)
  have one : ([eapWpsFlagsMf ||| eapWpsFlagsLf] : Bytes).length = 1 := rfl
  have length : eapLength first.memory link.size = sizeofWpsEapHdr + created.eapFragThreshold := by
    apply wpsNtohs_wpsHtons (by omega)
    · simp only [first, FixedBuffer.write_memory]
      rw [store_outside (by rw [length_wpsHtons]; omega), store_apply, length_wpsHtons,
        if_pos (by omega), Nat.sub_self]
    · simp only [first, FixedBuffer.write_memory]
      rw [store_outside (by rw [length_wpsHtons]; omega), store_apply, length_wpsHtons,
        if_pos (by omega), Nat.add_sub_cancel_left]
  have behind : ∀ place, link.size + 16 ≤ place → first.memory place = out.msgToSend.memory place := by
    intro place far
    simp only [first, FixedBuffer.write_memory]
    rw [store_outside (by rw [length_wpsHtons]; omega), store_outside (by rw [length_wpsHtons]; omega),
      store_outside (by rw [one]; omega)]
    exact headed.kept place far
  have sent : created.sendEap link link.size (sizeofWpsEapHdr + msg.length) =
      ({ created with msgToSend := first, nextFragToSend := link.size, fragSize := msg.length }
        : Outgoing).sendPacket link 0 (.inside (0 + link.size))
          (sizeofWpsEapHdr + created.eapFragThreshold) := by
    unfold Outgoing.sendEap
    dsimp only
    rw [wpsLen_eq (by omega), if_neg (by omega), Nat.zero_add]
    change Outgoing.sendPacket link _ 0 _ (eapLength first.memory link.size) = _
    rw [length]
  have packet : ∀ place, place < sizeofWpsEapHdr + created.eapFragThreshold →
      eapPacket link (created.sendEap link link.size (sizeofWpsEapHdr + msg.length)).2 place =
        first.memory (link.size + place) := by
    intro place covered
    rw [sent, sendPacket_packet covered, Nat.zero_add]
  refine ⟨_, _, built, ⟨?_, ?_, ?_, ?_, room, ?_⟩, ⟨?_, ?_, ?_, ?_⟩⟩
  · rw [sent, sendPacket_inside]
  · rw [sent, sendPacket_inside]
  · intro i unsent inside
    rw [sent, sendPacket_behind (by omega)]
    exact (behind _ (by omega)).trans (placed.carried i inside)
  · rw [sent, sendPacket_intact]
    simp only [first, FixedBuffer.write_intact, length_wpsHtons, one]
    exact ⟨⟨⟨⟨headed.intact placed.intact, by omega⟩, by omega⟩, by omega⟩, by omega⟩
  · rw [sent, sendPacket_inside]
    change created.eapFragThreshold = _
    omega
  · have total : sizeofWpsEapHdr + (out.eapFragThreshold - eapWpsLfOffset + eapWpsLfOffset) =
        sizeofWpsEapHdr + created.eapFragThreshold := by omega
    rw [total, ← length]
    exact wpsNtohs_congr (packet 2 (by omega)) (packet 3 (by omega))
  · rw [eapFlags, packet 13 (by omega)]
    simp only [first, FixedBuffer.write_memory]
    rw [store_outside (by rw [length_wpsHtons]; omega), store_outside (by rw [length_wpsHtons]; omega),
      store_apply, one, if_pos (by omega), Nat.sub_self]
    rfl
  · apply wpsNtohs_wpsHtons (by omega)
    · rw [packet _ (by omega)]
      simp only [first, FixedBuffer.write_memory]
      rw [store_apply, length_wpsHtons, if_pos (by omega), Nat.sub_self]
    · rw [packet _ (by omega)]
      simp only [first, FixedBuffer.write_memory]
      rw [store_apply, length_wpsHtons, if_pos (by omega), ← Nat.add_assoc, Nat.add_sub_cancel_left]
  · intro i inside
    have place : link.size + (sizeofWpsEapHdr + eapWpsLfOffset + i) = link.size + 16 + i := by omega
    rw [packet _ (by omega), place, behind _ (by omega)]
    exact placed.carried i (by omega)

end

/-- The receiver has nothing under way. -/
structure Idle (r : Reassembly) : Prop where
  total : r.totalBytesToRecv = 0
  received : r.totalReceived = 0
  intact : r.fragsReceived.intact = true

/-- The first fragment announces the message and brings the first bytes of it. -/
theorem receive_first {exceeds : Int → Int → Int → Bool} (compares : Compares exceeds)
    {r : Reassembly} {packet : Lib.Memory} {msg : Bytes} {sent : Nat} (idle : Idle r)
    (first : FirstFragment packet msg sent) (fits : sent ≤ msg.length) (large : 12 ≤ sent)
    (room : sizeofWpsEapHdr + msg.length ≤ wpsEapDataMaxLength) :
    ∃ after, r.receive exceeds packet = (after, .more) ∧ Gathered after msg sent := by
  have limit : wpsEapDataMaxLength = 2048 := rfl
  have header : sizeofWpsEapHdr = 14 := rfl
  have offset : eapWpsLfOffset = 2 := rfl
  have total := idle.total
  have received := idle.received
  let begun : Reassembly := { r with totalBytesToRecv := msg.length }
  have len : wpsLen packet = (sent + eapWpsLfOffset : Nat) := by
    rw [Wps.wpsLen, first.length, toUint32]
    omega
  have accepted : exceeds begun.totalBytesToRecv (begun.totalReceived - sizeofWpsEapHdr)
      (wpsLen packet) = false := by
    change exceeds msg.length (r.totalReceived - sizeofWpsEapHdr) _ = false
    rw [received, len, compares _ _ _ (by omega) (by omega) (by omega) (by omega) (by omega) (by omega)]
    simp only [decide_eq_false_iff_not]
    omega
  have lengthField : begun.lfBytes = 2 := if_pos received
  have taken : begun.copied packet = (sent : Int) := by
    rw [Reassembly.copied, len, lengthField, toUint32]
    omega
  have hdr : begun.takeHdr packet = { begun with
      fragsReceived := r.fragsReceived.write 0 (load packet 0 sizeofWpsEapHdr)
      totalReceived := sizeofWpsEapHdr } := if_pos received
  have written : (begun.takeData packet).fragsReceived =
      (r.fragsReceived.write 0 (load packet 0 sizeofWpsEapHdr)).write sizeofWpsEapHdr
        (load packet (sizeofWpsEapHdr + 2) sent) := by
    unfold Reassembly.takeData
    rw [hdr, lengthField, taken]
    exact copyFrag_inside (by omega)
  have more : eapFlags packet 0 &&& eapWpsFlagsMf ≠ 0 := by
    rw [first.flags]
    decide
  have announced : eapFlags packet 0 &&& eapWpsFlagsLf ≠ 0 := by
    rw [first.flags]
    decide
  refine ⟨begun.takeData packet, ?_, ⟨?_, ?_, ?_, ?_, room, ?_⟩⟩
  · unfold Reassembly.receive
    rw [if_neg (fun absent => announced absent.2), if_pos total, first.announced]
    dsimp only
    have processed : begun.processFrag exceeds packet = some (begun.takeData packet) := by
      unfold Reassembly.processFrag
      rw [accepted]
      exact if_pos more
    rw [processed]
    exact if_pos more
  · unfold Reassembly.takeData
    rw [hdr]
  · unfold Reassembly.takeData
    rw [hdr, taken]
    dsimp only
    rw [toInt32]
    omega
  · intro i got
    have place : sizeofWpsEapHdr + 2 + i = sizeofWpsEapHdr + eapWpsLfOffset + i := rfl
    rw [written, FixedBuffer.write_memory, store_apply, length_load, if_pos (by omega),
      Nat.add_sub_cancel_left, ofBytes_load _ _ _ got, place]
    exact first.data i got
  · rw [written, FixedBuffer.write_intact, FixedBuffer.write_intact, length_load, length_load]
    exact ⟨⟨idle.intact, by omega⟩, by omega⟩
  · exact List.ne_nil_of_length_pos (by omega)

structure Exchange where
  frames : List Bytes
  message : Option Bytes
  out : Outgoing
  reassembly : Reassembly

/-- A frame has been sent. The receiver takes it in; for every fragment it asks for
more, and the sender goes on. -/
def exchange (link : LinkHeader) (exceeds : Int → Int → Int → Bool) (ids : Nat → UInt8) :
    Nat → Nat → Outgoing → Reassembly → Bytes → Exchange
  | 0, _, out, r, frame => ⟨[frame], none, out, r⟩
  | fuel + 1, sent, out, r, frame =>
    let packet := eapPacket link frame
    if r.reassembling packet then
      let received := r.receive exceeds packet
      match received.2 with
      | .refused => ⟨[frame], none, out, received.1⟩
      | .whole => ⟨[frame], some (messageOf received.1.fragsReceived.memory), out, received.1⟩
      | .more =>
        let next := (out.advance link).sendNextFrag link (ids sent)
        let rest := exchange link exceeds ids fuel (sent + 1) next.1 received.1 next.2
        { rest with frames := frame :: rest.frames }
    else ⟨[frame], some (messageOf packet), out, r⟩

/-- A message is sent and taken in. -/
def transfer (link : LinkHeader) (exceeds : Int → Int → Int → Bool) (ids : Nat → UInt8) (fuel : Nat)
    (out : Outgoing) (r : Reassembly) (data : Source) (dataLen : Nat) (code id : UInt8) :
    Option Exchange :=
  let sent := out.sendMsg link data dataLen code id
  sent.2.map fun first => exchange link exceeds ids fuel 0 sent.1 r first.2

/-- More fragments follow a frame. -/
def HasMore (link : LinkHeader) (frame : Bytes) : Prop :=
  eapFlags (eapPacket link frame) 0 &&& eapWpsFlagsMf ≠ 0

/-- What a lossless exchange of `msg` looks like. -/
structure Lossless (link : LinkHeader) (threshold : Nat) (msg : Bytes) (e : Exchange) : Prop where
  delivered : e.message = some msg
  defined : e.out.msgToSend.intact = true ∧ e.reassembly.fragsReceived.intact = true
  more : ∃ earlier last, e.frames = earlier ++ [last] ∧ (∀ frame ∈ earlier, HasMore link frame) ∧
    ¬ HasMore link last
  announced : threshold < msg.length → ∃ first rest, e.frames = first :: rest ∧
    eapFlags (eapPacket link first) 0 &&& eapWpsFlagsLf ≠ 0 ∧
      wpsNtohs (eapPacket link first) sizeofWpsEapHdr = msg.length
  unfragmented : msg.length ≤ threshold → ∃ frame, e.frames = [frame] ∧
    eapFlags (eapPacket link frame) 0 = 0 ∧ messageOf (eapPacket link frame) = msg

section

variable {link : LinkHeader} {exceeds : Int → Int → Int → Bool} {ids : Nat → UInt8}
  {out : Outgoing} {r : Reassembly} {msg frame : Bytes}

theorem Gathered.reassembling {sent : Nat} (gathered : Gathered r msg sent) (packet : Lib.Memory) :
    r.reassembling packet = true := by
  have some := List.length_pos_of_ne_nil gathered.nonempty
  have announced : r.totalBytesToRecv ≠ 0 := by
    rw [gathered.total]
    omega
  simp [Reassembly.reassembling, announced]

/-- From the second fragment on. The induction is on what is left of the message. -/
theorem exchange_pending (ids : Nat → UInt8) (compares : Compares exceeds) {sent : Nat} (index : Nat)
    (large : 12 ≤ out.eapFragThreshold) (pending : Pending link out msg sent)
    (inside : sent < msg.length) (gathered : Gathered r msg sent)
    (fragment : Fragment (eapPacket link frame) msg sent (min out.eapFragThreshold (msg.length - sent)))
    (flags : eapFlags (eapPacket link frame) 0 =
      if out.eapFragThreshold < msg.length - sent then eapWpsFlagsMf else 0) :
    ∃ fuel, let e := exchange link exceeds ids fuel index out r frame
      e.message = some msg ∧ e.out.msgToSend.intact = true ∧
        e.reassembly.fragsReceived.intact = true ∧
          ∃ earlier last, e.frames = earlier ++ [last] ∧
            (∀ frame ∈ earlier, HasMore link frame) ∧ ¬ HasMore link last := by
  induction left : msg.length - sent using Nat.strongRecOn generalizing sent index out r frame with
  | ind rest ih =>
    have length := pending.room
    by_cases more : out.eapFragThreshold < msg.length - sent
    · rw [if_pos more] at flags
      have all : min out.eapFragThreshold (msg.length - sent) = out.eapFragThreshold := by omega
      rw [all] at fragment
      have taken := takeData_gathered gathered fragment (by omega)
      obtain ⟨next, marked, further, threshold⟩ := sendNextFrag_fragment (ids index) pending.advance
        (by omega) (by omega)
      have same : (out.advance link).eapFragThreshold = out.eapFragThreshold := by
        unfold Outgoing.advance
        split
        · rfl
        · rfl
      rw [same] at next marked threshold
      obtain ⟨fuel, message, sender, receiver, earlier, last, frames, marks, final⟩ :=
        ih (msg.length - (sent + out.eapFragThreshold)) (by omega) (index + 1) (by omega) further
          (by omega) taken (by rw [threshold]; exact next) (by rw [threshold]; exact marked) rfl
      have received := receive_more compares gathered fragment (by omega) flags
      refine ⟨fuel + 1, ?_⟩
      have step : exchange link exceeds ids (fuel + 1) index out r frame =
          let next := (out.advance link).sendNextFrag link (ids index)
          let rest := exchange link exceeds ids fuel (index + 1) next.1
            (r.takeData (eapPacket link frame)) next.2
          { rest with frames := frame :: rest.frames } := by
        rw [exchange]
        simp only [gathered.reassembling, received, if_true]
      rw [step]
      refine ⟨message, sender, receiver, frame :: earlier, last, ?_, ?_, final⟩
      · exact congrArg (List.cons frame) frames
      · intro one member
        rcases List.mem_cons.mp member with rfl | old
        · rw [HasMore, flags]
          decide
        · exact marks one old
    · rw [if_neg more] at flags
      have all : min out.eapFragThreshold (msg.length - sent) = msg.length - sent := by omega
      rw [all] at fragment
      obtain ⟨after, received, message, receiver⟩ := receive_whole compares gathered fragment
        (by omega) flags
      refine ⟨1, ?_⟩
      have step : exchange link exceeds ids 1 index out r frame =
          ⟨[frame], some (messageOf after.fragsReceived.memory), out, after⟩ := by
        rw [exchange]
        simp only [gathered.reassembling, received, if_true]
      rw [step]
      refine ⟨congrArg some message, pending.intact, receiver, [], frame, rfl, by simp, ?_⟩
      rw [HasMore, flags]
      decide

theorem sendNextFrag_intact {id : UInt8}
    (intact : (out.sendNextFrag link id).1.msgToSend.intact = true) : out.msgToSend.intact = true := by
  have sent := (sendPacket_intact.mp intact).1
  exact (createFragHdr_intact.mp sent).1

theorem exchange_intact {fuel index : Nat}
    (intact : (exchange link exceeds ids fuel index out r frame).out.msgToSend.intact = true) :
    out.msgToSend.intact = true := by
  induction fuel generalizing index out r frame with
  | zero => exact intact
  | succ fuel ih =>
    rw [exchange] at intact
    split at intact
    · dsimp only at intact
      split at intact
      · exact intact
      · exact intact
      · have sent := sendNextFrag_intact (ih intact)
        unfold Outgoing.advance at sent
        split at sent
        · exact sent
        · exact sent
    · exact intact

/-- Exactly the messages of a known type that are not as long as the threshold are
sent without loss. -/
theorem transfer_lossless_iff (compares : Compares exceeds) {code id : UInt8}
    (low : 100 ≤ out.eapFragThreshold) (placed : Placed link out msg)
    (idle : Idle r) :
    (∃ fuel e, transfer link exceeds ids fuel out r (.inside (link.size + 16)) msg.length code id =
      some e ∧ Lossless link out.eapFragThreshold msg e) ↔
    msg.length ≠ out.eapFragThreshold ∧
      (messageOpcode (out.byteAt (.inside (link.size + 16)) wpsMsgtypeOffset)).isSome = true := by
  have room := placed.room
  have limit : wpsEapDataMaxLength = 2048 := rfl
  have header : sizeofWpsEapHdr = 14 := rfl
  have offset : eapWpsLfOffset = 2 := rfl
  constructor
  · rintro ⟨fuel, e, transferred, lossless⟩
    unfold transfer at transferred
    dsimp only at transferred
    obtain ⟨first, built, rfl⟩ := Option.map_eq_some_iff.mp transferred
    have opcode : (messageOpcode
        (out.byteAt (.inside (link.size + 16)) wpsMsgtypeOffset)).isSome = true := by
      by_contra unknown
      have refused := Option.not_isSome_iff_eq_none.mp unknown
      have start := packetStart_le out msg.length
      unfold Outgoing.sendMsg Outgoing.createPkt at built
      dsimp only at built
      rw [byteAt_started code id (by omega), refused] at built
      cases built
    refine ⟨?_, opcode⟩
    intro same
    obtain ⟨sent, frame, sending, broken⟩ := sendMsg_exact code id placed opcode same
    have intact := exchange_intact lossless.defined.1
    rw [sending, broken] at intact
    cases intact
  · rintro ⟨different, opcode⟩
    by_cases short : msg.length < out.eapFragThreshold
    · obtain ⟨sent, frame, sending, intact, fragment, flags⟩ :=
        sendMsg_short code id placed opcode short
      have direct : r.reassembling (eapPacket link frame) = false := by
        simp [Reassembly.reassembling, idle.total, flags]
      have message : messageOf (eapPacket link frame) = msg := by
        rw [messageOf, fragment.length, Nat.add_sub_cancel_left]
        apply load_carried
        intro i inside
        have same := fragment.data i inside
        rwa [Nat.zero_add] at same
      refine ⟨1, ⟨[frame], some (messageOf (eapPacket link frame)), sent, r⟩, ?_, ?_⟩
      · unfold transfer
        rw [sending]
        simp [exchange, direct]
      · refine ⟨congrArg some message, ⟨intact, idle.intact⟩, ⟨[], frame, rfl, by simp, ?_⟩, ?_, ?_⟩
        · rw [HasMore, flags]
          decide
        · intro long
          omega
        · intro _
          exact ⟨frame, rfl, flags, message⟩
    · have long : out.eapFragThreshold < msg.length := by omega
      obtain ⟨sent, frame, sending, begun, first⟩ :=
        sendMsg_long code id placed opcode long (by omega)
      have threshold : sent.eapFragThreshold = out.eapFragThreshold := by
        have same := begun.threshold
        omega
      obtain ⟨after, received, gathered⟩ :=
        receive_first compares idle first (by omega) (by omega) (by omega)
      have under : r.reassembling (eapPacket link frame) = true := by
        have more : eapFlags (eapPacket link frame) 0 &&& eapWpsFlagsMf ≠ 0 := by
          rw [first.flags]
          decide
        simp [Reassembly.reassembling, more]
      have same : (sent.advance link).eapFragThreshold = out.eapFragThreshold := by
        rw [← threshold]
        unfold Outgoing.advance
        split
        · rfl
        · rfl
      obtain ⟨next, marked, further, kept⟩ := sendNextFrag_fragment (ids 0) begun.advance
        (by omega) (by omega)
      obtain ⟨fuel, message, sender, receiver, earlier, last, frames, marks, final⟩ :=
        exchange_pending ids compares 1 (by omega) further (by omega) gathered
          (by rw [kept]; exact next) (by rw [kept]; exact marked)
      let rest := exchange link exceeds ids fuel 1 ((sent.advance link).sendNextFrag link (ids 0)).1
        after ((sent.advance link).sendNextFrag link (ids 0)).2
      refine ⟨fuel + 1, { rest with frames := frame :: rest.frames }, ?_, ?_⟩
      · unfold transfer
        rw [sending]
        simp only [exchange, under, received, if_true, Option.map_some]
        rfl
      · refine ⟨message, ⟨sender, receiver⟩, ⟨frame :: earlier, last, ?_, ?_, final⟩, ?_, ?_⟩
        · exact congrArg (List.cons frame) frames
        · intro one member
          rcases List.mem_cons.mp member with rfl | old
          · rw [HasMore, first.flags]
            decide
          · exact marks one old
        · intro _
          refine ⟨frame, rest.frames, rfl, ?_, first.announced⟩
          rw [first.flags]
          decide
        · intro fits
          omega

end

end BcmDhd.Wps
