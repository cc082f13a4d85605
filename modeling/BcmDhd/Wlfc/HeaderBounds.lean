import BcmDhd.Wlfc.HeaderParse
import BcmDhd.Wlfc.StatusFrame

namespace BcmDhd.Wlfc

/-- A status of `len` packets names a FIFO where one is looked up by it, and only slots of
the hanger or the one past its end. -/
def StatusFits (ctx : Ctx) (status : TxStatus) (len : Nat) : Prop :=
  ctx.txstatusIgnore = false → 0 < len →
    (ctx.mode.afq = true ∨ status.flags = wlfcCtlPktflagSuppressAcked → status.fifo ≤ acCount) ∧
    (ctx.mode.afq = false → status.hslot + len ≤ wlfcHangerMaxitems + 1)

/-- The header holds what the handler of the TLV reads, and its indices are ones. -/
def TlvFits (ctx : Ctx) (tmpbuf : Tmpbuf) (type : UInt8) (value tlvHdrLen : Nat) : Prop :=
  let status := readTxStatus ctx.mode tmpbuf value
  let statusLen := txStatusLen ctx.mode
  if type = wlfcCtlTypeTxstatus then value + statusLen ≤ tlvHdrLen ∧ StatusFits ctx status 1
  else if type = wlfcCtlTypeCompTxstatus then
    value + statusLen + 1 ≤ tlvHdrLen ∧ StatusFits ctx status (tmpbuf (value + statusLen)).toNat
  else if type = wlfcCtlTypeFifoCreditback then
    ctx.proptxstatusMode = .explicitCredit → value + fifoCount ≤ tlvHdrLen
  else if type = wlfcCtlTypeMacRequestCredit ∨ type = wlfcCtlTypeMacRequestPacket then
    value + 2 ≤ tlvHdrLen ∧
      ((ctx.entries (lookupIndex (tmpbuf (value + 1)))).occupied = true → value + 3 ≤ tlvHdrLen)
  else if type = wlfcCtlTypeMacOpen ∨ type = wlfcCtlTypeMacClose then value + 1 ≤ tlvHdrLen
  else if type = wlfcCtlTypeMacdescAdd then
    value + 8 ≤ tlvHdrLen ∧
      ((ctx.entries (lookupIndex (tmpbuf value))).occupied = false →
        (tmpbuf (value + 1)).toNat < wlfcMaxIfnum)
  else if type = wlfcCtlTypeMacdescDel then
    value + 2 ≤ tlvHdrLen ∧
      ((ctx.entries (lookupIndex (tmpbuf value))).occupied = true →
        (tmpbuf (value + 1)).toNat < wlfcMaxIfnum)
  else if type = wlfcCtlTypeTransId then value + 6 ≤ tlvHdrLen
  else if type = wlfcCtlTypeInterfaceOpen ∨ type = wlfcCtlTypeInterfaceClose then
    value + 1 ≤ tlvHdrLen
  else True

/-- A filler is one byte. Anything else has a length, and if it is all there, it fits. -/
def Parsing.Fits (tlvHdrLen : Nat) (parsing : Parsing) : Prop :=
  parsing.type = wlfcCtlTypeFiller ∨
    (parsing.processed + 2 ≤ tlvHdrLen ∧ (2 + parsing.len ≤ parsing.remainder →
      ∀ ctx ∈ parsing.state.wlfc,
        TlvFits ctx parsing.state.tmpbuf parsing.type parsing.value tlvHdrLen))

/-- Where the rounds of the loop begin. -/
def visited (target : ReorderTarget) : Nat → Parsing → List Parsing
  | 0, _ => []
  | rounds + 1, parsing =>
    if parsing.goesOn then
      parsing :: match (parseRound target parsing).1 with
        | some next => visited target rounds next
        | none => []
    else []

/-- Whether the header is parsed at all. -/
def parses (wlfcState : Option Ctx) (mode : FcMode) : Prop :=
  proptxstatusMode wlfcState mode = .onlyAmpduHostreorder ∨
    (wlfcState.isSome ∧ proptxstatusMode wlfcState mode ≠ .none)

section InRange

variable {tlvHdrLen : Nat}

theorem inRange_append {first second : List Access} :
    (∀ access ∈ first ++ second, access.InRange tlvHdrLen) ↔
      (∀ access ∈ first, access.InRange tlvHdrLen) ∧ ∀ access ∈ second, access.InRange tlvHdrLen :=
  List.forall_mem_append

theorem inRange_nil : (∀ access ∈ ([] : List Access), access.InRange tlvHdrLen) ↔ True := by simp

theorem inRange_singleton {access : Access} :
    (∀ other ∈ [access], other.InRange tlvHdrLen) ↔ access.InRange tlvHdrLen :=
  List.forall_mem_singleton

theorem inRange_reads {offset count : Nat} (some : 0 < count) :
    (∀ access ∈ reads offset count, access.InRange tlvHdrLen) ↔ offset + count ≤ tlvHdrLen := by
  simp only [reads, List.forall_mem_map, List.mem_range, Access.InRange]
  constructor
  · intro inside
    have last := inside (count - 1) (by omega)
    omega
  · intro fits i below
    omega

theorem inRange_reads_of_le {offset count : Nat} (fits : offset + count ≤ tlvHdrLen) :
    ∀ access ∈ reads offset count, access.InRange tlvHdrLen := by
  by_cases empty : count = 0
  · subst empty
    simp [reads]
  · exact (inRange_reads (Nat.pos_of_ne_zero empty)).mpr fits

theorem inRange_node (macHandle : UInt8) :
    (∀ access ∈ [Access.node (lookupIndex macHandle)], access.InRange tlvHdrLen) ↔ True := by
  rw [inRange_singleton]
  exact iff_true_intro (Nat.mod_lt _ (by decide))

theorem inRange_psqSup {fifo : Nat} :
    Access.InRange tlvHdrLen (.precedence (psqSupIdx fifo) wlfcPsqPrecCount) ↔ fifo ≤ acCount := by
  unfold Access.InRange psqSupIdx wlfcPsqPrecCount
  omega

theorem inRange_afq {fifo : Nat} :
    Access.InRange tlvHdrLen (.precedence fifo wlfcAfqPrecCount) ↔ fifo ≤ acCount :=
  Nat.lt_succ_iff

end InRange

theorem statusRound_hslot (ctx : Ctx) (status : TxStatus) (cursor : StatusCursor) :
    (statusRound ctx status cursor).2.hslot =
      if ctx.mode.afq then cursor.hslot else (cursor.hslot + 1) % 2 ^ 16 := by
  unfold statusRound
  split
  · rfl
  · rfl

theorem statusRound_unfound {ctx : Ctx} {status : TxStatus} {cursor : StatusCursor}
    (none : (statusPkt (ackSuppressed ctx cursor) status cursor).2 = none) :
    (statusRound ctx status cursor).2.fifo = cursor.fifo ∧
      (statusRound ctx status cursor).2.flags = status.flags := by
  unfold statusRound
  split
  · exact ⟨rfl, rfl⟩
  · rename_i found
    rw [found] at none
    exact absurd none (by simp)

/-- What one round makes of a status. -/
def roundFits (afq fromHeader : Bool) (flags fifo hslot : Nat) : Prop :=
  (fromHeader = true → afq = true ∨ flags = wlfcCtlPktflagSuppressAcked → fifo ≤ acCount) ∧
    (afq = false → hslot ≤ wlfcHangerMaxitems)

theorem inRange_round {tlvHdrLen : Nat} (ctx : Ctx) (cursor : StatusCursor) (fromHeader : Bool) :
    (∀ access ∈ (if cursor.flags = wlfcCtlPktflagSuppressAcked ∧ fromHeader then
        [Access.precedence (psqSupIdx cursor.fifo) wlfcPsqPrecCount] else []) ++
      if ctx.mode.afq then if fromHeader then [Access.precedence cursor.fifo wlfcAfqPrecCount] else []
      else if cursor.hslot = wlfcHangerMaxitems then [] else [Access.hangerSlot cursor.hslot],
      access.InRange tlvHdrLen) ↔
      roundFits ctx.mode.afq fromHeader cursor.flags cursor.fifo cursor.hslot := by
  have acked : (∀ access ∈ (if cursor.flags = wlfcCtlPktflagSuppressAcked ∧ fromHeader then
      [Access.precedence (psqSupIdx cursor.fifo) wlfcPsqPrecCount] else []),
      access.InRange tlvHdrLen) ↔
      (fromHeader = true → cursor.flags = wlfcCtlPktflagSuppressAcked → cursor.fifo ≤ acCount) := by
    split
    · rename_i isAcked
      rw [inRange_singleton, inRange_psqSup]
      simp only [isAcked, true_imp_iff]
    · rename_i other
      rw [inRange_nil, true_iff]
      intro header flags
      exact absurd ⟨flags, header⟩ other
  rw [inRange_append, acked]
  unfold roundFits
  cases mode : ctx.mode.afq with
  | true =>
    rw [if_pos rfl]
    cases fromHeader with
    | true =>
      rw [if_pos rfl, inRange_singleton, inRange_afq]
      simp only [true_or, true_imp_iff, Bool.true_eq_false, false_imp_iff, and_true]
      exact and_iff_right_of_imp fun fits _ => fits
    | false => simp
  | false =>
    rw [if_neg (by simp)]
    simp only [Bool.false_eq_true, false_or, true_imp_iff]
    refine and_congr_right fun _ => ?_
    split
    · rename_i last
      rw [inRange_nil, true_iff, last]
    · rename_i inner
      rw [inRange_singleton]
      change cursor.hslot < wlfcHangerMaxitems ↔ _
      omega

/-- The slots of a status follow one another. -/
theorem inRange_statusIndices {tlvHdrLen : Nat} (status : TxStatus) (left : Nat) (fromHeader : Bool)
    (ctx : Ctx) (cursor : StatusCursor)
    (heard : fromHeader = true → cursor.fifo = status.fifo ∧ cursor.flags = status.flags) :
    (∀ access ∈ statusIndices status left fromHeader (ctx, cursor), access.InRange tlvHdrLen) ↔
      (0 < left →
        (fromHeader = true →
          ctx.mode.afq = true ∨ status.flags = wlfcCtlPktflagSuppressAcked → status.fifo ≤ acCount) ∧
        (ctx.mode.afq = false → cursor.hslot + left ≤ wlfcHangerMaxitems + 1)) := by
  induction left generalizing fromHeader ctx cursor with
  | zero => simp [statusIndices]
  | succ left ih =>
    have mode : (statusRound ctx status cursor).1.mode.afq = ctx.mode.afq := by
      rw [(Unmoved.statusRound ctx status cursor).mode]
    have slot := statusRound_hslot ctx status cursor
    have next := ih (fromHeader && (statusPkt (ackSuppressed ctx cursor) status cursor).2.isNone)
      (statusRound ctx status cursor).1 (statusRound ctx status cursor).2 (by
        intro unfound
        rw [Bool.and_eq_true, Option.isNone_iff_eq_none] at unfound
        obtain ⟨fifo, flags⟩ := statusRound_unfound unfound.2
        exact ⟨fifo.trans (heard unfound.1).1, flags⟩)
    unfold statusIndices
    dsimp only
    rw [inRange_append, inRange_round, next, mode, slot]
    have named : roundFits ctx.mode.afq fromHeader cursor.flags cursor.fifo cursor.hslot ↔
        roundFits ctx.mode.afq fromHeader status.flags status.fifo cursor.hslot := by
      cases fromHeader with
      | true =>
        obtain ⟨fifo, flags⟩ := heard rfl
        rw [fifo, flags]
      | false => simp [roundFits]
    have slots : cursor.hslot ≤ wlfcHangerMaxitems ∧
        (0 < left → (cursor.hslot + 1) % 2 ^ 16 + left ≤ wlfcHangerMaxitems + 1) ↔
        cursor.hslot + (left + 1) ≤ wlfcHangerMaxitems + 1 := by
      unfold wlfcHangerMaxitems
      omega
    rw [named]
    unfold roundFits
    constructor
    · rintro ⟨⟨fifo, first⟩, rest⟩ -
      refine ⟨fifo, fun hanger => slots.mp ⟨first hanger, fun more => ?_⟩⟩
      have later := (rest more).2 hanger
      rwa [hanger, if_neg (by simp)] at later
    · intro fits
      obtain ⟨fifo, hslot⟩ := fits (Nat.succ_pos left)
      refine ⟨⟨fifo, fun hanger => (slots.mpr (hslot hanger)).1⟩, fun more => ⟨?_, ?_⟩⟩
      · intro unfound
        exact fifo (Bool.and_eq_true_iff.mp unfound).1
      · intro hanger
        rw [hanger, if_neg (by simp)]
        exact (slots.mpr (hslot hanger)).2 more

theorem txStatusLen_pos (mode : WlfcMode) : 0 < txStatusLen mode := by
  unfold txStatusLen wlfcCtlValueLenTxstatus
  omega

theorem inRange_txstatus {tlvHdrLen : Nat} (ctx : Ctx) (tmpbuf : Tmpbuf) (value len : Nat) :
    (∀ access ∈ txstatusAccesses ctx tmpbuf value len, access.InRange tlvHdrLen) ↔
      value + txStatusLen ctx.mode ≤ tlvHdrLen ∧
        StatusFits ctx (readTxStatus ctx.mode tmpbuf value) len := by
  unfold txstatusAccesses StatusFits
  dsimp only
  rw [inRange_append, inRange_reads (txStatusLen_pos ctx.mode)]
  refine and_congr_right fun _ => ?_
  cases ignore : ctx.txstatusIgnore with
  | true => simp
  | false =>
    rw [if_neg (by simp), inRange_statusIndices _ len true ctx _ fun _ => ⟨rfl, rfl⟩]
    simp only [true_imp_iff]
    rfl

theorem inRange_macdescAdd {tlvHdrLen : Nat} (ctx : Ctx) (tmpbuf : Tmpbuf) (value : Nat) :
    (∀ access ∈ macdescAddAccesses ctx tmpbuf value, access.InRange tlvHdrLen) ↔
      value + 8 ≤ tlvHdrLen ∧
        ((ctx.entries (lookupIndex (tmpbuf value))).occupied = false →
          (tmpbuf (value + 1)).toNat < wlfcMaxIfnum) := by
  unfold macdescAddAccesses
  dsimp only
  rw [inRange_append, inRange_append, inRange_reads (by decide), inRange_node, and_true,
    evictExisting_occupied]
  refine and_congr_right fun _ => ?_
  cases occupied : (ctx.entries (lookupIndex (tmpbuf value))).occupied with
  | true => simp
  | false =>
    rw [if_neg (by simp), inRange_singleton]
    exact ⟨fun fits _ => fits, fun told => told rfl⟩

theorem inRange_macdescDel {tlvHdrLen : Nat} (ctx : Ctx) (tmpbuf : Tmpbuf) (value : Nat) :
    (∀ access ∈ macdescDelAccesses ctx tmpbuf value, access.InRange tlvHdrLen) ↔
      value + 2 ≤ tlvHdrLen ∧
        ((ctx.entries (lookupIndex (tmpbuf value))).occupied = true →
          (tmpbuf (value + 1)).toNat < wlfcMaxIfnum) := by
  unfold macdescDelAccesses
  dsimp only
  rw [inRange_append, inRange_append, inRange_reads (by decide), inRange_node, and_true]
  refine and_congr_right fun _ => ?_
  cases occupied : (ctx.entries (lookupIndex (tmpbuf value))).occupied with
  | true =>
    rw [if_pos rfl, inRange_singleton]
    exact ⟨fun fits _ => fits, fun told => told rfl⟩
  | false => simp

theorem inRange_request {tlvHdrLen : Nat} (ctx : Ctx) (tmpbuf : Tmpbuf) (value : Nat) :
    (∀ access ∈ requestAccesses ctx tmpbuf value, access.InRange tlvHdrLen) ↔
      value + 2 ≤ tlvHdrLen ∧
        ((ctx.entries (lookupIndex (tmpbuf (value + 1)))).occupied = true → value + 3 ≤ tlvHdrLen) := by
  unfold requestAccesses
  dsimp only
  rw [inRange_append, inRange_append, inRange_reads (by decide), inRange_node, and_true]
  refine and_congr_right fun _ => ?_
  cases occupied : (ctx.entries (lookupIndex (tmpbuf (value + 1)))).occupied with
  | true =>
    rw [if_pos rfl, inRange_reads (by decide)]
    exact ⟨fun fits _ => fits, fun told => told rfl⟩
  | false => simp

theorem inRange_interface {tlvHdrLen : Nat} (tmpbuf : Tmpbuf) (value : Nat) :
    (∀ access ∈ interfaceAccesses tmpbuf value, access.InRange tlvHdrLen) ↔
      value + 1 ≤ tlvHdrLen := by
  unfold interfaceAccesses
  dsimp only
  rw [inRange_append, inRange_reads (by decide)]
  refine and_iff_left ?_
  split
  · rename_i inside
    exact inRange_singleton.mpr inside
  · exact inRange_nil.mpr trivial

theorem inRange_tlv {tlvHdrLen : Nat} (ctx : Ctx) (tmpbuf : Tmpbuf) (type : UInt8) (value : Nat) :
    (∀ access ∈ tlvAccesses ctx tmpbuf type value, access.InRange tlvHdrLen) ↔
      TlvFits ctx tmpbuf type value tlvHdrLen := by
  unfold tlvAccesses TlvFits
  dsimp only
  split
  · exact inRange_txstatus ctx tmpbuf value 1
  · split
    · -- the byte behind the status tells how many there are
      rw [inRange_append, inRange_reads (by decide), inRange_txstatus]
      constructor
      · rintro ⟨count, -, fits⟩
        exact ⟨count, fits⟩
      · rintro ⟨count, fits⟩
        exact ⟨count, by omega, fits⟩
    · split
      · cases ctx.proptxstatusMode with
        | explicitCredit =>
          rw [if_pos rfl, inRange_reads (by decide)]
          exact ⟨fun fits _ => fits, fun told => told rfl⟩
        | _ => simp
      · split
        · exact inRange_request ctx tmpbuf value
        · split
          · rw [inRange_append, inRange_reads (by decide), inRange_node, and_true]
          · split
            · exact inRange_macdescAdd ctx tmpbuf value
            · split
              · exact inRange_macdescDel ctx tmpbuf value
              · split
                · rw [inRange_reads (by decide)]
                · split
                  · exact inRange_interface tmpbuf value
                  · exact inRange_nil

/-- The copy of reordering information is held back to the TLV. -/
theorem inRange_handleTlv {tlvHdrLen : Nat} (target : ReorderTarget) (state : ParseState)
    (type : UInt8) {len value : Nat} (inside : value + len ≤ tlvHdrLen) :
    (∀ access ∈ (handleTlv target state type len value).2, access.InRange tlvHdrLen) ↔
      ∀ ctx ∈ state.wlfc, TlvFits ctx state.tmpbuf type value tlvHdrLen := by
  have copied : ∀ condition : Prop, ∀ [Decidable condition],
      ∀ access ∈ (if condition then reads value len else []), access.InRange tlvHdrLen := by
    intro condition _
    split
    · exact inRange_reads_of_le inside
    · simp
  unfold handleTlv
  dsimp only
  split
  · rename_i alone
    rw [alone]
    simp only [Option.mem_def, reduceCtorEq, false_imp_iff, implies_true, iff_true]
    exact copied _
  · rename_i ctx there
    rw [there, inRange_append, inRange_tlv]
    simp only [Option.mem_def, Option.some.injEq, forall_eq']
    exact and_iff_right (copied _)

theorem inRange_parseRound {tlvHdrLen : Nat} (target : ReorderTarget) {parsing : Parsing}
    (goesOn : parsing.goesOn = true) (inside : parsing.processed + parsing.remainder ≤ tlvHdrLen) :
    (∀ access ∈ (parseRound target parsing).2, access.InRange tlvHdrLen) ↔
      parsing.Fits tlvHdrLen := by
  have left : 0 < parsing.remainder := (of_decide_eq_true goesOn).2
  unfold parseRound Parsing.Fits
  by_cases filler : parsing.type = wlfcCtlTypeFiller
  · rw [if_pos filler, inRange_singleton]
    refine iff_of_true ?_ (Or.inl filler)
    change parsing.processed < tlvHdrLen
    omega
  · rw [if_neg filler, or_iff_right filler]
    by_cases cut : parsing.remainder < 2 + parsing.len
    · rw [if_pos cut, inRange_reads (by decide)]
      exact (and_iff_left fun whole => absurd cut (by omega)).symm
    · rw [if_neg cut]
      dsimp only
      rw [inRange_append, inRange_reads (by decide), inRange_handleTlv]
      · exact and_congr_right fun _ => ⟨fun fits _ => fits, fun told => told (by omega)⟩
      · unfold Parsing.value
        omega

theorem parseRound_next {target : ReorderTarget} {parsing next : Parsing}
    (goesOn : parsing.goesOn = true) (found : (parseRound target parsing).1 = some next) :
    parsing.processed < next.processed ∧
      next.processed + next.remainder = parsing.processed + parsing.remainder := by
  have left : 0 < parsing.remainder := (of_decide_eq_true goesOn).2
  unfold parseRound at found
  split at found
  · obtain rfl := Option.some.inj found
    dsimp only
    omega
  · split at found
    · exact absurd found (by simp)
    · obtain rfl := Option.some.inj found
      dsimp only
      omega

theorem inRange_parseLoop {tlvHdrLen : Nat} (target : ReorderTarget) (rounds : Nat)
    (parsing : Parsing) (touched : List Access)
    (enough : wlfcMaxPendingDatalen * 2 ≤ parsing.processed + rounds)
    (inside : parsing.processed + parsing.remainder ≤ tlvHdrLen) :
    ∃ done more, parseLoop target rounds parsing touched = some (done, touched ++ more) ∧
      ((∀ access ∈ more, access.InRange tlvHdrLen) ↔
        ∀ met ∈ visited target rounds parsing, met.Fits tlvHdrLen) := by
  induction rounds generalizing parsing touched with
  | zero =>
    have ended : parsing.goesOn = false := by
      unfold Parsing.goesOn
      exact decide_eq_false (by omega)
    refine ⟨parsing, [], ?_, by simp [visited]⟩
    unfold parseLoop
    rw [ended, List.append_nil]
    rfl
  | succ rounds ih =>
    unfold parseLoop visited
    cases goesOn : parsing.goesOn with
    | false => exact ⟨parsing, [], by simp, by simp⟩
    | true =>
      have round := inRange_parseRound target goesOn inside
      rw [if_pos rfl, if_pos rfl]
      rcases step : parseRound target parsing with ⟨next, more⟩
      rw [step] at round
      cases next with
      | none =>
        refine ⟨parsing, more, rfl, ?_⟩
        rw [round]
        exact List.forall_mem_singleton.symm
      | some next =>
        obtain ⟨further, whole⟩ := parseRound_next goesOn (congrArg Prod.fst step)
        obtain ⟨done, rest, loop, fits⟩ :=
          ih next (touched ++ more) (by omega) (by rw [whole]; exact inside)
        refine ⟨done, more ++ rest, ?_, ?_⟩
        · rw [← List.append_assoc]
          exact loop
        · rw [inRange_append, round, fits]
          exact List.forall_mem_cons.symm

theorem parses_iff (wlfcState : Option Ctx) (mode : FcMode) :
    parses wlfcState mode ↔ ¬ (proptxstatusMode wlfcState mode ≠ .onlyAmpduHostreorder ∧
      (wlfcState.isNone ∨ proptxstatusMode wlfcState mode = .none)) := by
  unfold parses
  rw [not_and_or, not_not, not_or]
  cases wlfcState with
  | none => simp
  | some ctx => simp

/-- Every header is parsed to an end. Parsing stays within the header and within the tables
just if every TLV that it gets to fits. -/
theorem dhdWlfcParseHeaderInfo_inRange_iff (wlfcState : Option Ctx) (mode : FcMode)
    (target : ReorderTarget) (tmpbuf : Tmpbuf) (tlvHdrLen : Nat) :
    ∃ result, dhdWlfcParseHeaderInfo wlfcState mode target tmpbuf tlvHdrLen = some result ∧
      ((∀ access ∈ result.touched, access.InRange tlvHdrLen) ↔
        (parses wlfcState mode →
          ∀ met ∈ visited target (wlfcMaxPendingDatalen * 2)
            (parseStart wlfcState mode tmpbuf tlvHdrLen), met.Fits tlvHdrLen)) := by
  unfold dhdWlfcParseHeaderInfo
  dsimp only
  by_cases unsupported : proptxstatusMode wlfcState mode ≠ .onlyAmpduHostreorder ∧
      (wlfcState.isNone ∨ proptxstatusMode wlfcState mode = .none)
  · rw [if_pos unsupported]
    refine ⟨_, rfl, ?_⟩
    refine iff_of_true (inRange_nil.mpr trivial) fun supported => ?_
    exact absurd unsupported ((parses_iff wlfcState mode).mp supported)
  · rw [if_neg unsupported]
    have supported := (parses_iff wlfcState mode).mpr unsupported
    have whole : (parseStart wlfcState mode tmpbuf tlvHdrLen).processed +
        (parseStart wlfcState mode tmpbuf tlvHdrLen).remainder ≤ tlvHdrLen := by
      change 0 + tlvHdrLen % 2 ^ 16 ≤ tlvHdrLen
      rw [Nat.zero_add]
      exact Nat.mod_le _ _
    obtain ⟨done, touched, loop, fits⟩ := inRange_parseLoop target (wlfcMaxPendingDatalen * 2) _ []
      (Nat.le_add_left _ _) whole
    rw [loop]
    refine ⟨_, rfl, ?_⟩
    exact ⟨fun inside _ => fits.mp inside, fun met => fits.mpr (met supported)⟩

/-- A driver that has just started in hanger mode, and a header that is a status of slot 4000. -/
theorem foreign_slot_indexed :
    ∃ result, dhdWlfcParseHeaderInfo (some (dhdWlfcEnable ⟨false, false, false⟩ fun _ => freshPkt 0 0 [] []))
        .explicitCredit ⟨false, false⟩ (fun i => [4, 4, 0, 0xa0, 0x0f, 0].getD i 0) 6 = some result ∧
      ∃ access ∈ result.touched, ¬ access.InRange 6 := by
  refine ⟨_, rfl, .hangerSlot 4000, ?_, ?_⟩
  · decide +kernel
  · decide

end BcmDhd.Wlfc
