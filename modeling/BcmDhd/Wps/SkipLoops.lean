import BcmDhd.Wps.MessageFront

namespace BcmDhd.Wps

open BcmDhd.Lib

/-- The loops end: at the authenticator if an error is not returned before. -/
def LoopsEnd (front : Nat → Except Halt (Except Nat Front)) : Prop :=
  ∃ outcome, Settles front outcome ∧ outcome ≠ .error .unfinished ∧
    ∀ found, outcome = .ok (.ok found) → found.buf.nextType = wpsIdAuthenticator

namespace LoopsEnd

variable {front : Nat → Except Halt (Except Nat Front)}

theorem refused {code : Nat} (settled : Settles front (.ok (.error code))) : LoopsEnd front := by
  refine ⟨_, settled, by simp, ?_⟩
  intro found same
  cases same

theorem crashed (settled : Settles front (.error .crash)) : LoopsEnd front := by
  refine ⟨_, settled, by simp, ?_⟩
  intro found same
  cases same

theorem reached {found : Front} (settled : Settles front (.ok (.ok found)))
    (type : found.buf.nextType = wpsIdAuthenticator) : LoopsEnd front := by
  refine ⟨_, settled, by simp, ?_⟩
  intro other same
  cases same
  exact type

theorem after_iff {Value : Type} {first : Nat → Except Halt Value} {value : Value}
    {next : Nat → Value → Except Halt (Except Nat Front)} (settled : Settles first (.ok value)) :
    (LoopsEnd fun turns => first turns >>= next turns) ↔ LoopsEnd fun turns => next turns value := by
  constructor
  · rintro ⟨outcome, both, finished, found⟩
    exact ⟨outcome, settled.of_bind both, finished, found⟩
  · rintro ⟨outcome, rest, finished, found⟩
    exact ⟨outcome, settled.bind rest, finished, found⟩

theorem endless {Value : Type} {loop : Nat → Option Value}
    {next : Nat → Value → Except Halt (Except Nat Front)} (never : ∀ turns, loop turns = none)
    (ends : LoopsEnd fun turns => orUnfinished (loop turns) >>= next turns) : False := by
  obtain ⟨outcome, done, finished, _⟩ := ends
  have unfinished : Settles (fun turns => orUnfinished (loop turns) >>= next turns)
      (.error .unfinished) := by
    refine ⟨0, fun turns _ => ?_⟩
    dsimp only
    rw [never]
    rfl
  exact finished (done.unique unfinished)

end LoopsEnd

/-- An attribute of this type can be reached from one attribute to the next. -/
inductive Ahead (theType : Nat) : BufferObj → Prop
  | here {b : BufferObj} (type : b.nextType = theType) : Ahead theType b
  | later {b next : BufferObj} (moved : b.advance (4 + b.ntohs 2) = some next)
    (ahead : Ahead theType next) : Ahead theType b

section

variable {theType : Nat} {b next : BufferObj} {found : Option BufferObj}

theorem skipTurn_smaller (goesOn : skipTurn theType b = .again next) : next.remaining < b.remaining := by
  unfold skipTurn at goesOn
  split at goesOn
  · cases goesOn
  · split at goesOn
    · rename_i after moved
      cases goesOn
      have less := BufferObj.advance_remaining moved
      omega
    · cases goesOn

theorem skip_leaves (theType : Nat) (b : BufferObj) : ∃ found, Leaves (skipTurn theType) b found := by
  obtain ⟨found, done⟩ := Loop.leaves_of_measure (skipTurn theType) (fun _ => True)
    BufferObj.remaining (fun _ _ _ goesOn => ⟨trivial, skipTurn_smaller goesOn⟩) b trivial
  exact ⟨found, _, done⟩

theorem skip_found {turns : Nat} (done : loopFor (skipTurn theType) turns b = some (some next)) :
    next.nextType = theType := by
  have ends : ∀ state result, True → skipTurn theType state = .leave result →
      ∀ next, result = some next → next.nextType = theType := by
    intro state result _ left next same
    unfold skipTurn at left
    split at left
    · rename_i type
      cases left
      cases same
      exact type
    · split at left
      · cases left
      · cases left
        cases same
  exact Loop.loopFor_invariant (fun _ _ _ _ => trivial) ends trivial done next rfl

theorem skipToAuthenticator_ends (front : Front) : LoopsEnd fun turns => skipToAuthenticator turns front := by
  obtain ⟨found, left⟩ := skip_leaves wpsIdAuthenticator front.buf
  obtain ⟨turns, done⟩ := left
  refine (LoopsEnd.after_iff (Settles.map (Settles.loop ⟨turns, done⟩) orUnfinished)).mpr ?_
  cases found with
  | some b => exact LoopsEnd.reached (Settles.const _) (skip_found done)
  | none => exact LoopsEnd.refused (Settles.const _)

end

theorem findVendorIdTurn_smaller {vendorId : VendorId} {b next : BufferObj}
    (goesOn : findVendorIdTurn vendorId b = .again next) : next.remaining < b.remaining := by
  unfold findVendorIdTurn at goesOn
  split at goesOn
  · cases goesOn
  split at goesOn
  · cases goesOn
  split at goesOn
  · cases goesOn
  split at goesOn
  · cases goesOn
  · rename_i some_ _ _ _
    cases goesOn
    rw [BufferObj.remaining, BufferObj.past, List.length_drop, BufferObj.remaining]
    unfold BufferObj.remaining at some_
    omega

/-- The first vendor extension of the message, and the place behind it. -/
def vendorExtPlace (msg : BufferObj) : Option (VendorExt × BufferObj) :=
  (tlvFindVendorExtParse (msg.bytes.length + 1) msg).join

/-- The vendor extension, and where skipping starts. -/
def skipStart (version2 : UInt8) (msg : BufferObj) : Option VendorExt × BufferObj :=
  if version2 < wpsVersion2 then (none, msg) else behindVendorExt msg (vendorExtPlace msg)

theorem vendorExt_settles (msg : BufferObj) :
    Settles (fun turns => tlvFindVendorExtParse turns msg) (some (vendorExtPlace msg)) := by
  obtain ⟨found, done⟩ := Loop.leaves_of_measure (findVendorIdTurn wfaVendorId) (fun _ => True) BufferObj.remaining
    (fun _ _ _ goesOn => ⟨trivial, findVendorIdTurn_smaller goesOn⟩) msg.rewind trivial
  unfold vendorExtPlace tlvFindVendorExtParse tlvFindVendorExtParseImp
  by_cases empty_ : msg.dataLength = 0
  · simp only [empty_, if_true]
    exact Settles.const _
  · simp only [empty_, if_false]
    have place : loopFor (findVendorIdTurn wfaVendorId) (msg.bytes.length + 1) msg.rewind = some found := done
    rw [place]
    exact Settles.map (Settles.loop ⟨_, done⟩) (Option.map fun found => found.bind tlvVendorExtParse)

theorem vendorExtSearch_settles (version2 : UInt8) (msg : BufferObj) :
    Settles (fun turns => orUnfinished (vendorExtSearch turns version2 msg))
      (.ok (skipStart version2 msg)) := by
  unfold vendorExtSearch skipStart
  by_cases first : version2 < wpsVersion2
  · simp only [first, if_true]
    exact Settles.const _
  · simp only [first, if_false]
    exact Settles.map (vendorExt_settles msg) fun found => orUnfinished (found.map (behindVendorExt msg))

theorem m3Front_ends (regInfo : RegData) (msg : BufferObj) :
    LoopsEnd fun turns => m3Front turns regInfo msg := by
  unfold m3Front
  cases regMsgVersionCheck .m3 msg with
  | error code => exact LoopsEnd.refused (Settles.const _)
  | ok b => exact (LoopsEnd.after_iff (vendorExtSearch_settles _ _)).mpr (skipToAuthenticator_ends _)

theorem m7Front_ends (regInfo : RegData) (msg : BufferObj) :
    LoopsEnd fun turns => m7Front turns regInfo msg := by
  unfold m7Front
  cases regMsgVersionCheck .m7 msg with
  | error code => exact LoopsEnd.refused (Settles.const _)
  | ok b => exact (LoopsEnd.after_iff (vendorExtSearch_settles _ _)).mpr (skipToAuthenticator_ends _)

theorem m8Front_ends (regInfo : RegData) (msg : BufferObj) :
    LoopsEnd fun turns => m8Front turns regInfo msg := by
  unfold m8Front
  cases regMsgVersionCheck .m8 msg with
  | error code => exact LoopsEnd.refused (Settles.const _)
  | ok b =>
    dsimp only
    split
    · exact LoopsEnd.refused (Settles.const _)
    · exact (LoopsEnd.after_iff (vendorExtSearch_settles _ _)).mpr (skipToAuthenticator_ends _)

/-- Where the loop of `reg_proto_process_m5` starts, if it does. -/
def m5Start (regInfo : RegData) (msg : BufferObj) : Option BufferObj :=
  match regMsgVersionCheck .m5 msg with
  | .error _ => none
  | .ok b =>
    let nonce := tlvDserialize .unset wpsIdRegistrarNonce b 16
    some (skipStart regInfo.registrarVersion2 (tlvEncrSettingsParse .unset nonce.buf).buf).2

theorem m5Skip_leaves {b : BufferObj} (ahead : Ahead wpsIdAuthenticator b) :
    ∃ found, Leaves m5SkipTurn b found ∧ found.nextType = wpsIdAuthenticator := by
  induction ahead with
  | here type => exact ⟨_, Loop.leaves_of_leave (if_pos type), type⟩
  | @later b next moved _ ih =>
    by_cases type : b.nextType = wpsIdAuthenticator
    · exact ⟨_, Loop.leaves_of_leave (if_pos type), type⟩
    · obtain ⟨found, left, reached⟩ := ih
      have goesOn : m5SkipTurn b = .again next := by rw [m5SkipTurn, if_neg type, moved, Option.getD_some]
      exact ⟨found, Loop.Leaves.back left goesOn, reached⟩

theorem m5Skip_stuck {b : BufferObj} (never : ¬Ahead wpsIdAuthenticator b) (turns : Nat) :
    loopFor m5SkipTurn turns b = none := by
  apply Loop.loopFor_none (fun b => ¬Ahead wpsIdAuthenticator b) _ never
  intro b never
  have type : b.nextType ≠ wpsIdAuthenticator := fun type => never (.here type)
  refine ⟨_, if_neg type, ?_⟩
  cases moved : b.advance (4 + b.ntohs 2) with
  | none => exact never
  | some next => exact fun ahead => never (.later moved ahead)

theorem m5Front_ends_iff (regInfo : RegData) (msg : BufferObj) :
    (LoopsEnd fun turns => m5Front turns regInfo msg) ↔
      ∀ start, m5Start regInfo msg = some start → Ahead wpsIdAuthenticator start := by
  unfold m5Front m5Start
  cases regMsgVersionCheck .m5 msg with
  | error code =>
    simp only [reduceCtorEq, false_implies, implies_true, iff_true]
    exact LoopsEnd.refused (Settles.const _)
  | ok b =>
    simp only [Option.some.injEq, forall_eq']
    rw [LoopsEnd.after_iff (vendorExtSearch_settles _ _)]
    constructor
    · intro ends
      by_contra never
      exact LoopsEnd.endless (m5Skip_stuck never) ends
    · intro ahead
      obtain ⟨found, left, reached⟩ := m5Skip_leaves ahead
      rw [LoopsEnd.after_iff (Settles.map (Settles.loop left) orUnfinished)]
      exact LoopsEnd.reached (Settles.const _) reached

/-- The first encrypted settings on the way to the authenticator are too short or cut off. -/
inductive EncrStuck : BufferObj → Prop
  | here {b : BufferObj} (type : b.nextType = wpsIdEncrSettings)
    (broken : (tlvEncrSettingsParse .unset b).ok = false) : EncrStuck b
  | later {b next : BufferObj} (goesOn : b.nextType ≠ wpsIdAuthenticator)
    (other : b.nextType ≠ wpsIdEncrSettings) (moved : b.advance (4 + b.ntohs 2) = some next)
    (stuck : EncrStuck next) : EncrStuck b

/-- Settings that cannot be parsed are met again and again. -/
theorem m2Skip_stuck {b : BufferObj} (stuck : EncrStuck b) (turns : Nat) (tlvErr : Bool) :
    loopFor m2SkipTurn turns ⟨.unset, tlvErr, b⟩ = none := by
  apply Loop.loopFor_none (fun scan : M2Scan => scan.encrSettings = .unset ∧ EncrStuck scan.buf) _
    ⟨rfl, stuck⟩
  rintro ⟨encr, tlvErr, b⟩ ⟨unset, stuck⟩
  dsimp only at unset stuck
  subst unset
  cases stuck with
  | here type broken =>
    refine ⟨⟨.unset, true, b⟩, ?_, rfl, .here type broken⟩
    have kept : tlvEncrSettingsParse .unset b = ⟨false, .unset, b⟩ := by
      unfold tlvEncrSettingsParse at broken ⊢
      cases parsed : cplxtlvParseHdr wpsIdEncrSettings b 32 with
      | none => rfl
      | some header =>
        rw [parsed] at broken
        cases broken
    rw [m2SkipTurn, if_neg (by rw [type]; decide), if_pos ⟨type, rfl⟩]
    dsimp only
    rw [kept, Bool.not_false, Bool.or_true]
  | @later _ next goesOn other moved stuck =>
    refine ⟨⟨.unset, tlvErr, next⟩, ?_, rfl, stuck⟩
    rw [m2SkipTurn, if_neg goesOn, if_neg (fun both => other both.1)]
    dsimp only
    rw [moved]

theorem cplxtlvParseHdr_some {theType minDataSize len : Nat} {b next : BufferObj}
    (parsed : cplxtlvParseHdr theType b minDataSize = some (len, next)) :
    minDataSize ≤ len ∧ len + 4 ≤ b.remaining := by
  unfold cplxtlvParseHdr at parsed
  split at parsed
  · cases parsed
  split at parsed
  · cases parsed
  split at parsed
  · cases parsed
  split at parsed
  · cases parsed
  · rename_i long fits
    cases parsed
    exact ⟨Nat.not_lt.mp long, Nat.not_lt.mp fits⟩

theorem m2SkipTurn_smaller {scan next : M2Scan}
    (free : scan.encrSettings.encrDataLength ≠ 0 ∨ ¬EncrStuck scan.buf)
    (goesOn : m2SkipTurn scan = .again next) :
    (next.encrSettings.encrDataLength ≠ 0 ∨ ¬EncrStuck next.buf) ∧
      next.buf.remaining < scan.buf.remaining := by
  unfold m2SkipTurn at goesOn
  split at goesOn
  · cases goesOn
  rename_i notEnd
  split at goesOn
  · rename_i first
    obtain ⟨type, unset⟩ := first
    have able : ¬EncrStuck scan.buf := free.resolve_left (not_not.mpr unset)
    cases goesOn
    unfold tlvEncrSettingsParse
    cases parsed : cplxtlvParseHdr wpsIdEncrSettings scan.buf 32 with
    | none =>
      refine absurd (EncrStuck.here type ?_) able
      rw [tlvEncrSettingsParse, parsed]
    | some header =>
      obtain ⟨long, fits⟩ := cplxtlvParseHdr_some parsed
      constructor
      · left
        dsimp only
        omega
      · dsimp only
        unfold BufferObj.remaining at fits ⊢
        rw [BufferObj.past, List.length_drop]
        omega
  · rename_i other
    split at goesOn
    · rename_i after moved
      cases goesOn
      have less := BufferObj.advance_remaining moved
      refine ⟨?_, by dsimp only; omega⟩
      by_cases unset : scan.encrSettings.encrDataLength = 0
      · right
        intro stuck
        exact free.resolve_left (not_not.mpr unset)
          (.later notEnd (fun type => other ⟨type, unset⟩) moved stuck)
      · exact Or.inl unset
    · cases goesOn

theorem m2Skip_leaves (scan : M2Scan) (free : ¬EncrStuck scan.buf) :
    ∃ found, Leaves m2SkipTurn scan found ∧
      ∀ last, found = some last → last.buf.nextType = wpsIdAuthenticator := by
  obtain ⟨found, done⟩ := Loop.leaves_of_measure m2SkipTurn
    (fun scan => scan.encrSettings.encrDataLength ≠ 0 ∨ ¬EncrStuck scan.buf)
    (fun scan => scan.buf.remaining) (fun _ _ free goesOn => m2SkipTurn_smaller free goesOn) scan
    (Or.inr free)
  have ends : ∀ state result, True → m2SkipTurn state = .leave result →
      ∀ last, result = some last → last.buf.nextType = wpsIdAuthenticator := by
    intro state result _ left last same
    unfold m2SkipTurn at left
    split at left
    · rename_i type
      cases left
      cases same
      exact type
    · split at left
      · cases left
      · split at left
        · cases left
        · cases left
          cases same
  exact ⟨found, ⟨_, done⟩, Loop.loopFor_invariant (fun _ _ _ _ => trivial) ends trivial done⟩

theorem read_of_ok {b msg : BufferObj} {theType dataSize count : Nat}
    (ok : (tlvDserialize .unset theType b dataSize).ok = true) :
    ∃ bytes, msg.read (tlvDserialize .unset theType b dataSize).value.data count = .ok bytes := by
  unfold tlvDserialize at ok ⊢
  split at ok
  · cases ok
  · cases ok
  · rename_i len found
    dsimp only
    split
    · exact ⟨_, rfl⟩
    · exact ⟨_, rfl⟩

/-- Where the loop of `reg_proto_process_m2` starts, if it does. -/
def m2Start (regInfo : RegData) (msg : BufferObj) : Option BufferObj :=
  match regMsgVersionCheck .m2 msg with
  | .error _ => none
  | .ok b =>
    let head := m2Head b
    let start := skipStart regInfo.enrolleeVersion2 head.buf
    if head.tlvErr = false ∧ start.1.any (version2Err msg) = false ∧
        head.authTypeFlags &&& regInfo.authTypeFlags.toNat ≠ 0 ∧
        head.encrTypeFlags &&& regInfo.encrTypeFlags.toNat ≠ 0 ∧
        multipleM2 regInfo msg head.uuid = .ok false then some start.2 else none

theorem m2Head_registrarNonce {b : BufferObj} (msg : BufferObj) (complete : (m2Head b).tlvErr = false) :
    ∃ bytes, msg.read (m2Head b).registrarNonce.data (m2Head b).registrarNonce.len = .ok bytes := by
  apply read_of_ok
  simp only [m2Head, Bool.not_eq_eq_eq_not, Bool.not_false, Bool.and_eq_true] at complete
  exact complete.1.1.1.1.1.1.1.2

theorem read_ne_unfinished {msg : BufferObj} {data : Ptr} {count : Nat} :
    msg.read data count ≠ .error .unfinished := by
  unfold BufferObj.read
  split
  · split <;> simp
  · simp
  · simp

theorem multipleM2_ne_unfinished {regInfo : RegData} {msg : BufferObj} {uuid : TlvPtr} :
    multipleM2 regInfo msg uuid ≠ .error .unfinished := by
  unfold multipleM2
  split
  · simp
  split
  · simp
  cases received : msg.read uuid.data uuid.len with
  | ok bytes => exact fun same => by cases same
  | error halt =>
    cases halt with
    | crash => exact fun same => by cases same
    | unfinished => exact absurd received read_ne_unfinished

theorem m2Skip_ends_iff (regInfo : RegData) (msg : BufferObj) (head : M2Head)
    (start : Option VendorExt × BufferObj) :
    (LoopsEnd fun turns => m2Skip turns regInfo msg head start) ↔
      (head.tlvErr = false ∧ start.1.any (version2Err msg) = false ∧
        head.authTypeFlags &&& regInfo.authTypeFlags.toNat ≠ 0 ∧
        head.encrTypeFlags &&& regInfo.encrTypeFlags.toNat ≠ 0 ∧
        multipleM2 regInfo msg head.uuid = .ok false → ¬EncrStuck start.2) := by
  unfold m2Skip
  by_cases flags : head.authTypeFlags &&& regInfo.authTypeFlags.toNat = 0 ∨
      head.encrTypeFlags &&& regInfo.encrTypeFlags.toNat = 0
  · simp only [if_pos flags]
    refine iff_of_true (LoopsEnd.refused (Settles.const _)) ?_
    rintro ⟨_, _, auth, encr, _⟩
    exact absurd flags (not_or.mpr ⟨auth, encr⟩)
  simp only [if_neg flags]
  cases multiple : multipleM2 regInfo msg head.uuid with
  | error halt =>
    cases halt with
    | crash => exact iff_of_true (LoopsEnd.crashed (Settles.const _)) (by simp)
    | unfinished => exact absurd multiple multipleM2_ne_unfinished
  | ok other =>
    cases other with
    | true => exact iff_of_true (LoopsEnd.refused (Settles.const _)) (by simp)
    | false =>
      by_cases tlvErr : (head.tlvErr || start.1.any (version2Err msg)) = true
      · refine iff_of_true ?_ ?_
        · rw [tlvErr]
          exact LoopsEnd.refused (Settles.const _)
        · rintro ⟨complete, version, _⟩
          rw [complete, version] at tlvErr
          cases tlvErr
      · rw [Bool.eq_false_of_not_eq_true tlvErr]
        have clear := not_or.mp (mt (Bool.or_eq_true _ _).mpr tlvErr)
        have flagged := not_or.mp flags
        by_cases stuck : EncrStuck start.2
        · refine iff_of_false (LoopsEnd.endless fun turns => m2Skip_stuck stuck turns false) ?_
          intro free
          exact free ⟨Bool.eq_false_of_not_eq_true clear.1, Bool.eq_false_of_not_eq_true clear.2,
            flagged.1, flagged.2, rfl⟩ stuck
        · refine iff_of_true ?_ fun _ => stuck
          obtain ⟨found, left, reached⟩ := m2Skip_leaves ⟨.unset, false, start.2⟩ stuck
          refine (LoopsEnd.after_iff (Settles.map (Settles.loop left) orUnfinished)).mpr ?_
          cases found with
          | some scan => exact LoopsEnd.reached (Settles.const _) (reached scan rfl)
          | none => exact LoopsEnd.refused (Settles.const _)

theorem m2Front_ends_iff (regInfo : RegData) (msg : BufferObj) :
    (LoopsEnd fun turns => m2Front turns regInfo msg) ↔
      ∀ start, m2Start regInfo msg = some start → ¬EncrStuck start := by
  unfold m2Front m2Start
  cases regMsgVersionCheck .m2 msg with
  | error code =>
    simp only [reduceCtorEq, false_implies, implies_true, iff_true]
    exact LoopsEnd.refused (Settles.const _)
  | ok b =>
    dsimp only
    rw [LoopsEnd.after_iff (vendorExtSearch_settles _ _)]
    cases read : msg.read (m2Head b).registrarNonce.data (m2Head b).registrarNonce.len with
    | error halt =>
      have incomplete : (m2Head b).tlvErr ≠ false := by
        intro complete
        obtain ⟨bytes, same⟩ := m2Head_registrarNonce msg complete
        rw [read] at same
        cases same
      rw [if_neg (fun condition => incomplete condition.1)]
      simp only [reduceCtorEq, false_implies, implies_true, iff_true]
      cases halt with
      | crash => exact LoopsEnd.crashed (Settles.const _)
      | unfinished => exact absurd read read_ne_unfinished
    | ok bytes =>
      refine Iff.trans (m2Skip_ends_iff regInfo msg (m2Head b) _) ?_
      constructor
      · intro free start same
        split at same
        · rename_i condition
          cases same
          exact free condition
        · cases same
      · intro free condition
        exact free _ (if_pos condition)

/-- A registration in which nothing is known. -/
def blankReg : RegData :=
  let nonce : Nonce := repeated 16 0
  let mac : Mac := repeated 32 0
  let key : PublicKey := repeated 192 0
  { enrolleeNonce := nonce, registrarNonce := nonce, outMsg := [], inMsg := [], authKey := []
    keyWrapKey := [], eHash1 := mac, eHash2 := mac, rHash1 := mac, rHash2 := mac, es1 := nonce
    es2 := nonce, rs1 := nonce, rs2 := nonce, psk1 := nonce, psk2 := nonce, pke := key, pkr := key
    macAddr := repeated 6 0
    registrarVersion2 := 0, enrolleeVersion2 := 0, devInfoVersion2 := 0, authTypeFlags := 0
    encrTypeFlags := 0, registrarUuid := none, bAp := false }

end BcmDhd.Wps
