import BcmDhd.Lib.Bytes
import BcmDhd.Lib.Word
import BcmDhd.Utils.Pktpool

/-! The table of user priorities that a QoS Map element sets, and the priority that it gives a packet. -/

namespace BcmDhd.Utils

open BcmDhd.Lib

def upTableMax : Nat := 64

def qosMapFixedLength : Nat := 16

def dot11MngQosMapId : UInt8 := 110

/-- `bcm_tlv_t` with the bytes behind it. -/
structure BcmTlv where
  id : UInt8
  len : UInt8
  data : Memory

/-- The entries from `low` to `high`, unless an argument is refused. -/
def upTableSet (upTable : Memory) (usrPrio low high : UInt8) : Memory × Bool :=
  if usrPrio > 7 ∨ low > high ∨ low.toNat ≥ upTableMax ∨ high.toNat ≥ upTableMax then (upTable, false)
  else (fill low.toNat (high.toNat + 1 - low.toNat) (fun _ => usrPrio) upTable, true)

/-- `memset(up_table, 0xff, UP_TABLE_MAX)`. -/
def clearUpTable (upTable : Memory) : Memory := fill 0 upTableMax (fun _ => 0xff) upTable

/-- The ranges, of which the one for priority `n` is at `2 * n`, up to the first that is refused. -/
def fillRanges (rangePtr : Memory) : List Nat → Memory → Memory × Bool
  | [], upTable => (upTable, true)
  | n :: rest, upTable =>
    let low := rangePtr (2 * n)
    let high := rangePtr (2 * n + 1)
    if low = 255 ∧ high = 255 then fillRanges rangePtr rest upTable
    else
      let put := upTableSet upTable (UInt8.ofNat n) low high
      if put.2 then fillRanges rangePtr rest put.1 else (put.1, false)

/-- The exceptions with an invalid DSCP or priority are ignored. -/
def updateExceptions (exceptPtr : Memory) (exceptLen : Nat) (upTable : Memory) : Memory :=
  (List.range (exceptLen / 2)).foldl (fun upTable n =>
    (upTableSet upTable (exceptPtr (2 * n + 1)) (exceptPtr (2 * n)) (exceptPtr (2 * n))).1) upTable

/-- The length of a QoS Map element is 16 and two for each exception. -/
def IsQosMap (ie : BcmTlv) : Prop :=
  ie.id = dot11MngQosMapId ∧ ie.len.toNat ≥ qosMapFixedLength ∧ ie.len.toNat % 2 = 0

instance (ie : BcmTlv) : Decidable (IsQosMap ie) := inferInstanceAs (Decidable (_ ∧ _))

def wlSetUpTable : (upTable : Option Memory) → (qosMapIe : Option BcmTlv) → Option Memory × Int
  | some upTable, some ie =>
    let cleared := clearUpTable upTable
    if IsQosMap ie then
      let exceptLen := ie.len.toNat - qosMapFixedLength
      let filled := fillRanges (fun i => ie.data (exceptLen + i)) (List.range 8) cleared
      if filled.2 then (some (updateExceptions ie.data exceptLen filled.1), bcmeOk)
      else (some (clearUpTable filled.1), bcmeError)
    else (some cleared, bcmeOk)
  | upTable, _ => (upTable, bcmeError)

/-! ### The priority of a packet -/

/-- What the code is built with: `DHD_LOSSLESS_ROAMING`, and `CUSTOM_DSCP_TO_PRIO_MAPPING` with
`dhd_dscpmap_enable` set. -/
structure PrioBuild where
  losslessRoaming : Bool
  dscpmap : Bool

/-- A packet with `PKTPRIO`. -/
structure PrioPkt where
  data : Memory
  len : Nat
  prio : Nat

def dscp2priomap : List Nat :=
  [0, 0, 0, 0, 0, 0, 0, 0, 0, 0, 0, 0, 0, 0, 0, 0, 2, 0, 0, 0, 0, 0, 0, 0, 3, 0, 0, 0, 0, 0, 0, 0,
    4, 0, 0, 0, 0, 0, 0, 0, 5, 0, 0, 0, 0, 0, 0, 0, 6, 0, 0, 0, 0, 0, 0, 0, 7, 0, 0, 0, 0, 0, 0, 0]

def pktprioVdscp : Nat := 0x100

def pktprioVlan : Nat := 0x200

def pktprioUpd : Nat := 0x400

def pktprioDscp : Nat := 0x800

/-- `ntoh16` of the two bytes at an address. -/
def networkShort (data : Memory) (place : Nat) : Nat := (data place).toNat * 256 + (data (place + 1)).toNat

/-- `IP_TOS46`. -/
def ipTos46 (data : Memory) (ipBody : Nat) : UInt8 :=
  let version := (data ipBody &&& 0xf0) >>> 4
  if version = 4 then data (ipBody + 1)
  else if version = 6 then (data ipBody &&& 0x0f) <<< 4 ||| (data (ipBody + 1) &&& 0xf0) >>> 4
  else 0

/-- The priority of an untagged IP packet, by its type of service. -/
def tosPriority (build : PrioBuild) (tos : UInt8) : Nat :=
  let dscp := (tos >>> 2).toNat
  if dscp = 0x2E then 6
  else if dscp ∈ [0x1A, 0x1C, 0x1E] then 4
  else if dscp ∈ [0x12, 0x14, 0x16, 0x0A, 0x0C, 0x0E] then 3
  else if build.dscpmap then dscp2priomap.getD dscp 0
  else (tos >>> 5).toNat

/-- The priority in the tag of a frame. -/
def vlanPrio (data : Memory) : Nat := networkShort data 14 >>> 13 &&& 7

/-- The precedence in the IP header behind a tag, 0 if there is none. -/
def dscpPrio (data : Memory) : Nat :=
  if networkShort data 16 = 0x0800 ∨ networkShort data 16 = 0x86dd then (ipTos46 data 18 >>> 5).toNat else 0

/-- The priority of a tagged frame, and where it is from: an IP header before the tag. -/
def taggedPriority (data : Memory) : Nat × Nat :=
  if dscpPrio data ≠ 0 then (dscpPrio data, pktprioVdscp) else (vlanPrio data, pktprioVlan)

/-- The packet with its priority, and what is returned. -/
def pktsetprio (build : PrioBuild) (pkt : PrioPkt) (updateVtag : Bool) : PrioPkt × Nat :=
  let etherType := networkShort pkt.data 12
  if etherType = 0x8100 then
    let priority := (taggedPriority pkt.data).1
    let rc := (taggedPriority pkt.data).2
    if updateVtag ∧ priority ≠ vlanPrio pkt.data then
      let vlanTag := networkShort pkt.data 14 % 2 ^ 13 + priority * 2 ^ 13
      ({ pkt with
        data := store pkt.data 14 [UInt8.ofNat (vlanTag / 256), UInt8.ofNat vlanTag]
        prio := priority }, (rc ||| pktprioUpd) ||| priority)
    else ({ pkt with prio := priority }, rc ||| priority)
  else if build.losslessRoaming ∧ etherType = 0x888e then ({ pkt with prio := 7 }, pktprioDscp ||| 7)
  else if etherType = 0x0800 ∨ etherType = 0x86dd then
    let priority := tosPriority build (ipTos46 pkt.data 14)
    ({ pkt with prio := priority }, pktprioDscp ||| priority)
  else ({ pkt with prio := 0 }, 0)

/-- The DSCP if there is an IP header. -/
def pktgetdscp (pktdata : Memory) (pktlen : Nat) : Option UInt8 :=
  if pktlen < 34 then none
  else if networkShort pktdata 12 = 0x0800 then some (ipTos46 pktdata 14 >>> 2)
  else if networkShort pktdata 12 = 0x8100 then
    if pktlen ≥ 38 ∧ networkShort pktdata 16 = 0x0800 then some (ipTos46 pktdata 18 >>> 2) else none
  else none

def dscp2up (upTable : Option Memory) (dscp : UInt8) : UInt8 :=
  let userPriority : UInt8 := match upTable with
    | some upTable => if dscp.toNat < upTableMax then upTable dscp.toNat else 255
    | none => 255
  if userPriority = 255 then dscp >>> 3 else userPriority

def pktsetprioQms (build : PrioBuild) (pkt : PrioPkt) (upTable : Option Memory) (updateVtag : Bool) :
    PrioPkt × Nat :=
  if upTable.isNone then pktsetprio build pkt updateVtag
  else
    match pktgetdscp pkt.data pkt.len with
    | some dscp =>
      let userPriority := (dscp2up upTable dscp).toNat
      ({ pkt with prio := userPriority }, pktprioDscp ||| userPriority)
    | none => (pkt, 0)

/-! ### What an element says -/

/-- Priority `usrPrio` for the codepoints from `low` to `high`. -/
structure UpRule where
  usrPrio : UInt8
  low : UInt8
  high : UInt8

/-- A rule that can be taken, for a codepoint. -/
def UpRule.Covers (rule : UpRule) (dscp : Nat) : Prop :=
  rule.usrPrio ≤ 7 ∧ rule.high.toNat < upTableMax ∧ rule.low.toNat ≤ dscp ∧ dscp ≤ rule.high.toNat

instance (rule : UpRule) (dscp : Nat) : Decidable (rule.Covers dscp) := inferInstanceAs (Decidable (_ ∧ _))

/-- The last rule for a codepoint. -/
def lastRule (rules : List UpRule) (dscp : Nat) : Option UpRule :=
  (rules.filter fun rule => rule.Covers dscp).getLast?

def exceptions (ie : BcmTlv) : List UpRule :=
  (List.range ((ie.len.toNat - 16) / 2)).map fun n => ⟨ie.data (2 * n + 1), ie.data (2 * n), ie.data (2 * n)⟩

def ranges (ie : BcmTlv) : List UpRule :=
  (List.range 8).map fun n =>
    ⟨UInt8.ofNat n, ie.data (ie.len.toNat - 16 + 2 * n), ie.data (ie.len.toNat - 16 + (2 * n + 1))⟩

/-- The priority that an element gives a codepoint. -/
def mapped (ie : BcmTlv) (dscp : Nat) : UInt8 :=
  if IsQosMap ie then
    (((lastRule (exceptions ie) dscp).or (lastRule (ranges ie) dscp)).map UpRule.usrPrio).getD 0xff
  else 0xff

variable {upTable : Memory} {rules : List UpRule} {rule : UpRule} {dscp : Nat}

/-- The table with one rule after the other. -/
def withRules (upTable : Memory) (rules : List UpRule) : Memory :=
  rules.foldl (fun upTable rule => (upTableSet upTable rule.usrPrio rule.low rule.high).1) upTable

theorem upTableSet_apply : (upTableSet upTable rule.usrPrio rule.low rule.high).1 dscp =
    if rule.Covers dscp then rule.usrPrio else upTable dscp := by
  have known : rule.Covers dscp ↔ ¬ (rule.usrPrio > 7 ∨ rule.low > rule.high ∨ rule.low.toNat ≥ upTableMax ∨
      rule.high.toNat ≥ upTableMax) ∧ rule.low.toNat ≤ dscp ∧ dscp < rule.low.toNat +
        (rule.high.toNat + 1 - rule.low.toNat) := by
    unfold UpRule.Covers
    rw [UInt8.le_iff_toNat_le, gt_iff_lt, gt_iff_lt, UInt8.lt_iff_toNat_lt, UInt8.lt_iff_toNat_lt]
    omega
  unfold upTableSet
  split
  · rename_i refused
    exact (if_neg fun covers => (known.mp covers).1 refused).symm
  · rename_i taken
    exact (fill_apply ..).trans (if_congr (by simp [known, taken]) rfl rfl)

theorem lastRule_concat : lastRule (rules ++ [rule]) dscp =
    if rule.Covers dscp then some rule else lastRule rules dscp := by
  unfold lastRule
  rw [List.filter_append]
  split
  · rename_i covers
    simp [covers]
  · rename_i other
    simp [other]

/-- The last rule wins. -/
theorem withRules_apply : withRules upTable rules dscp =
    ((lastRule rules dscp).map UpRule.usrPrio).getD (upTable dscp) := by
  induction rules using List.reverseRecOn with
  | nil => rfl
  | append_singleton rules rule ih =>
    rw [lastRule_concat]
    unfold withRules at ih ⊢
    rw [List.foldl_append, List.foldl_cons, List.foldl_nil, upTableSet_apply, ih]
    split
    · rfl
    · rfl

theorem lastRule_covers (last : lastRule rules dscp = some rule) : rule.Covers dscp :=
  of_decide_eq_true (List.mem_filter.mp (List.mem_of_getLast? last)).2

theorem upTableSet_beyond (above : upTableMax ≤ dscp) :
    (upTableSet upTable rule.usrPrio rule.low rule.high).1 dscp = upTable dscp :=
  upTableSet_apply.trans (if_neg fun covers => absurd (above.trans covers.2.2.2) (Nat.not_le.mpr covers.2.1))

theorem withRules_beyond (above : upTableMax ≤ dscp) : withRules upTable rules dscp = upTable dscp := by
  rw [withRules_apply]
  cases last : lastRule rules dscp with
  | none => rfl
  | some rule =>
    have covers := lastRule_covers last
    exact absurd (above.trans covers.2.2.2) (Nat.not_le.mpr covers.2.1)

theorem fillRanges_eq {rangePtr : Memory} {ns : List Nat} (taken : (fillRanges rangePtr ns upTable).2 = true) :
    (fillRanges rangePtr ns upTable).1 = withRules upTable
      (ns.map fun n => ⟨UInt8.ofNat n, rangePtr (2 * n), rangePtr (2 * n + 1)⟩) := by
  induction ns generalizing upTable with
  | nil => rfl
  | cons n rest ih =>
    unfold fillRanges at taken ⊢
    dsimp only at taken ⊢
    split at taken
    · rename_i unused
      have same : (upTableSet upTable (UInt8.ofNat n) 255 255).1 = upTable := by
        unfold upTableSet
        rw [if_pos (.inr (.inr (.inl (by decide))))]
      rw [if_pos unused, ih taken, List.map_cons, unused.1, unused.2]
      unfold withRules
      rw [List.foldl_cons, same]
    · rename_i used
      split at taken
      · rename_i put
        rw [if_neg used, if_pos put, ih taken]
        rfl
      · cases taken

theorem fillRanges_beyond (rangePtr : Memory) (ns : List Nat) (above : upTableMax ≤ dscp) :
    (fillRanges rangePtr ns upTable).1 dscp = upTable dscp := by
  induction ns generalizing upTable with
  | nil => rfl
  | cons n rest ih =>
    have put := @upTableSet_beyond upTable ⟨UInt8.ofNat n, rangePtr (2 * n), rangePtr (2 * n + 1)⟩ dscp above
    unfold fillRanges
    dsimp only
    split
    · exact ih
    · split
      · exact ih.trans put
      · exact put

theorem clearUpTable_apply : clearUpTable upTable dscp = if dscp < upTableMax then 0xff else upTable dscp := by
  unfold clearUpTable
  simp [fill_apply]

/-- The table that an element leaves. -/
theorem wlSetUpTable_some (upTable : Memory) (ie : BcmTlv) : ∃ table result,
    wlSetUpTable (some upTable) (some ie) = (some table, result) ∧
      (∀ place ≥ upTableMax, table place = upTable place) ∧
      (result = bcmeError ∧ (∀ dscp < upTableMax, table dscp = 0xff) ∨
        result = bcmeOk ∧ ∀ dscp < upTableMax, table dscp = mapped ie dscp) := by
  unfold wlSetUpTable mapped
  dsimp only
  by_cases map : IsQosMap ie
  · rw [if_pos map]
    cases taken : (fillRanges (fun i => ie.data (ie.len.toNat - qosMapFixedLength + i)) (List.range 8)
        (clearUpTable upTable)).2 with
    | false =>
      refine ⟨_, _, rfl, ?_, .inl ⟨rfl, ?_⟩⟩
      · intro place above
        rw [clearUpTable_apply, if_neg (Nat.not_lt.mpr above), fillRanges_beyond _ _ above, clearUpTable_apply,
          if_neg (Nat.not_lt.mpr above)]
      · intro dscp below
        rw [clearUpTable_apply, if_pos below]
    | true =>
      have filled := fillRanges_eq taken
      refine ⟨withRules (withRules (clearUpTable upTable) (ranges ie)) (exceptions ie), bcmeOk, ?_, ?_,
        .inr ⟨rfl, ?_⟩⟩
      · rw [if_pos rfl, filled]
        unfold updateExceptions withRules exceptions ranges
        simp only [List.foldl_map]
        rfl
      · intro place above
        rw [withRules_beyond above, withRules_beyond above, clearUpTable_apply, if_neg (Nat.not_lt.mpr above)]
      · intro dscp below
        rw [if_pos map, withRules_apply, withRules_apply, clearUpTable_apply, if_pos below]
        cases lastRule (exceptions ie) dscp with
        | none => rfl
        | some rule => rfl
  · rw [if_neg map]
    refine ⟨_, _, rfl, ?_, .inr ⟨rfl, ?_⟩⟩
    · intro place above
      rw [clearUpTable_apply, if_neg (Nat.not_lt.mpr above)]
    · intro dscp below
      rw [clearUpTable_apply, if_pos below, if_neg map]

theorem mapped_low (ie : BcmTlv) (dscp : Nat) : mapped ie dscp ≤ 7 ∨ mapped ie dscp = 0xff := by
  unfold mapped
  split
  · cases last : (lastRule (exceptions ie) dscp).or (lastRule (ranges ie) dscp) with
    | none => exact .inr rfl
    | some rule =>
      refine .inl ?_
      rcases Option.or_eq_some_iff.mp last with exception | ⟨_, range⟩
      · exact (lastRule_covers exception).1
      · exact (lastRule_covers range).1
  · exact .inr rfl

/-! ### Priorities -/

theorem dscp2up_low {table : Memory} (low : ∀ dscp < upTableMax, table dscp ≤ 7 ∨ table dscp = 0xff) {dscp : UInt8}
    (six : dscp.toNat < upTableMax) : dscp2up (some table) dscp ≤ 7 := by
  unfold dscp2up
  dsimp only
  rw [if_pos six]
  split
  · rw [UInt8.le_iff_toNat_le]
    have short : dscp.toNat < 64 := six
    have shifted : (dscp >>> 3).toNat = dscp.toNat / 8 := by simp [Nat.shiftRight_eq_div_pow]
    have seven : (7 : UInt8).toNat = 7 := rfl
    omega
  · rename_i given
    exact (low _ six).resolve_right given

/-- Below the flags a priority of at most 7 is returned, and set unless there is no IP header. -/
def LowPriority (pkt : PrioPkt) (out : PrioPkt × Nat) : Prop :=
  ∃ priority ≤ 7, ∃ rc, rc % 256 = 0 ∧ out.2 = rc ||| priority ∧
    (out.1.prio = priority ∨ out.1 = pkt ∧ priority = 0)

theorem precedence_low (tos : UInt8) : (tos >>> 5).toNat ≤ 7 := by
  have byte := tos.toNat_lt
  have shifted : (tos >>> 5).toNat = tos.toNat / 32 := by simp [Nat.shiftRight_eq_div_pow]
  omega

theorem tosPriority_low (build : PrioBuild) (tos : UInt8) : tosPriority build tos ≤ 7 := by
  have mapped : ∀ priority ∈ dscp2priomap, priority ≤ 7 := by decide
  unfold tosPriority
  dsimp only
  split_ifs
  · decide
  · decide
  · decide
  · rw [List.getD_eq_getElem?_getD]
    cases here : dscp2priomap[(tos >>> 2).toNat]? with
    | none => exact Nat.zero_le 7
    | some priority => exact mapped priority (List.mem_of_getElem? here)
  · exact precedence_low tos

theorem taggedPriority_low (data : Memory) : (taggedPriority data).1 ≤ 7 ∧
    ((taggedPriority data).2 = pktprioVdscp ∨ (taggedPriority data).2 = pktprioVlan) := by
  unfold taggedPriority
  split
  · refine ⟨?_, .inl rfl⟩
    dsimp only [dscpPrio]
    split
    · exact precedence_low _
    · exact Nat.zero_le 7
  · exact ⟨Nat.and_le_right, .inr rfl⟩

theorem pktsetprio_low (build : PrioBuild) (pkt : PrioPkt) (updateVtag : Bool) :
    LowPriority pkt (pktsetprio build pkt updateVtag) := by
  obtain ⟨tagged, flag⟩ := taggedPriority_low pkt.data
  unfold pktsetprio
  dsimp only
  split
  · split
    · refine ⟨_, tagged, _, ?_, rfl, .inl rfl⟩
      rcases flag with flag | flag <;> rw [flag] <;> rfl
    · refine ⟨_, tagged, _, ?_, rfl, .inl rfl⟩
      rcases flag with flag | flag <;> rw [flag] <;> rfl
  · split
    · exact ⟨7, le_rfl, _, rfl, rfl, .inl rfl⟩
    · split
      · exact ⟨_, tosPriority_low _ _, _, rfl, rfl, .inl rfl⟩
      · exact ⟨0, Nat.zero_le 7, 0, rfl, rfl, .inl rfl⟩

theorem pktgetdscp_six {pktdata : Memory} {pktlen : Nat} {dscp : UInt8}
    (found : pktgetdscp pktdata pktlen = some dscp) :
    dscp.toNat < upTableMax := by
  have six : ∀ tos : UInt8, (tos >>> 2).toNat < upTableMax := by
    intro tos
    have byte := tos.toNat_lt
    have shifted : (tos >>> 2).toNat = tos.toNat / 4 := by simp [Nat.shiftRight_eq_div_pow]
    have entries : upTableMax = 64 := rfl
    omega
  unfold pktgetdscp at found
  split_ifs at found
  · exact Option.some.inj found ▸ six _
  · exact Option.some.inj found ▸ six _

/-- Whatever a table's entries are, as long as they are priorities or `0xff`. -/
theorem pktsetprioQms_low {table : Memory} (low : ∀ dscp < upTableMax, table dscp ≤ 7 ∨ table dscp = 0xff)
    (build : PrioBuild) (pkt : PrioPkt) (updateVtag : Bool) :
    LowPriority pkt (pktsetprioQms build pkt (some table) updateVtag) := by
  rw [pktsetprioQms, Option.isNone_some, if_neg Bool.false_ne_true]
  cases found : pktgetdscp pkt.data pkt.len with
  | none => exact ⟨0, Nat.zero_le 7, 0, rfl, rfl, .inr ⟨rfl, rfl⟩⟩
  | some dscp =>
    have six := dscp2up_low low (pktgetdscp_six found)
    exact ⟨_, UInt8.le_iff_toNat_le.mp six, _, rfl, rfl, .inl rfl⟩

/-- An element fails and leaves no entry, or each entry is the priority that the element gives; the
priorities of packets are at most 7 then. -/
theorem qosMap_installed (upTable : Memory) (ie : BcmTlv) : ∃ table result,
    wlSetUpTable (some upTable) (some ie) = (some table, result) ∧
      (∀ place ≥ upTableMax, table place = upTable place) ∧
      (result = bcmeError ∧ (∀ dscp < upTableMax, table dscp = 0xff) ∨
        result = bcmeOk ∧ ∀ dscp < upTableMax, table dscp = mapped ie dscp) ∧
      (∀ dscp < upTableMax, table dscp ≤ 7 ∨ table dscp = 0xff) ∧
      (∀ dscp : UInt8, dscp.toNat < upTableMax → dscp2up (some table) dscp ≤ 7) ∧
      ∀ build pkt updateVtag, LowPriority pkt (pktsetprioQms build pkt (some table) updateVtag) ∧
        LowPriority pkt (pktsetprioQms build pkt none updateVtag) := by
  obtain ⟨table, result, installed, beyond, entries⟩ := wlSetUpTable_some upTable ie
  have low : ∀ dscp < upTableMax, table dscp ≤ 7 ∨ table dscp = 0xff := by
    intro dscp below
    rcases entries with ⟨_, cleared⟩ | ⟨_, given⟩
    · exact .inr (cleared dscp below)
    · rw [given dscp below]
      exact mapped_low ie dscp
  refine ⟨table, result, installed, beyond, entries, low, fun dscp six => dscp2up_low low six, ?_⟩
  intro build pkt updateVtag
  exact ⟨pktsetprioQms_low low build pkt updateVtag, pktsetprio_low build pkt updateVtag⟩

/-- An element with the exception of codepoint 5 for priority 9, and no ranges. -/
def strayException : BcmTlv := ⟨110, 18, fun i => if i = 0 then 5 else if i = 1 then 9 else 0xff⟩

/-- The last exception for a codepoint is not what the table holds. -/
theorem stray_exception_ignored : exceptions strayException = [⟨9, 5, 5⟩] ∧
    ∃ table, wlSetUpTable (some fun _ => 0) (some strayException) = (some table, bcmeOk) ∧ table 5 = 0xff :=
  ⟨rfl, _, rfl, by decide⟩

end BcmDhd.Utils
